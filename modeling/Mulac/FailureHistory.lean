import Mulac.RowLifetimes

/-!
# The failure history of a row

Four writers edit the `extra_info` of a row: `failed` and the quarantine append
to its JSON, `dead` encodes its typed history again, and `sweep` sets a path in
SQL. Started from NULL, they act as appends to one list: the texts of the calls
that released the row, in order.
-/

namespace Mulac.FailureHistory

open JsonValue Identifiers Postgres SerdeJson QueueDomain KeyedTable QueueRow Repository
  RepositoryContracts FourQueues CallSequence QueueCalls QueueRuns BatchSettlement RowLifetimes

section Writers

variable {float : FloatReader} {original : Option Jsonb} {errors : List String}

/-- A history as the writers leave it: NULL while it is empty, then an object
whose only field holds the errors. -/
def Plain (extraInfo : Option Jsonb) (errors : List String) : Prop :=
  (errors = [] ∧ extraInfo = none) ∨
    ∃ j, extraInfo = some j ∧ j.value = .object [("errors",.array (errors.map .string))]

/-- Such a history decodes to its errors. -/
theorem Plain.read (h : Plain original errors) :
    ∃ history, readExtraInfo original = some history ∧
      history.elim [] ExtraInfo.errors = errors := by
  rcases h with ⟨rfl,rfl⟩ | ⟨j,rfl,hj⟩
  · exact ⟨none,rfl,rfl⟩
  · refine ⟨some ⟨errors⟩,?_,rfl⟩
    simp [readExtraInfo,hj,decodeExtraInfo,structField,vecOf_strings]

/-- serde reads it as the `Value` that it is. -/
theorem fromStrValue_errors (float : FloatReader) (errors : List String) :
    fromStrValue float (.object [("errors",.array (errors.map .string))]) =
      some (.object [("errors",.array (errors.map .string))]) := by
  have hdepth : (Json.object [("errors",.array (errors.map .string))]).depth<recursionLimit := by
    simp [Json.depth,Json.depthFields,Json.depthItems_strings,recursionLimit]
  rw [fromStrValue,if_pos hdepth]
  simp [Json.readNumbers,Json.readNumbersFields,Json.readNumbersItems_strings]

/-- `append_failure` appends to the list. -/
theorem Plain.appendFailure (h : Plain original errors) (reason : String) :
    appendFailure (rawExtraInfo float original) reason =
      .object [("errors",.array ((errors++[reason]).map .string))] := by
  rcases h with ⟨rfl,rfl⟩ | ⟨j,rfl,hj⟩
  · rfl
  · have hraw : rawExtraInfo float (some j) =
        some (.object [("errors",.array (errors.map .string))]) := by
      rw [rawExtraInfo,Option.map_some,hj,fromStrValue_errors,Option.getD_some]
    have hstrings : stringErrors [("errors",.array (errors.map .string))] = some errors := by
      simp [stringErrors,Json.field,vecOf_strings]
    simp only [hraw,QueueRow.appendFailure,hstrings]
    simp [Json.setField,Json.removeField]

/-- `write_failure` appends the reason it is given, if any. -/
theorem Plain.failure (h : Plain original errors) {reason : Option String}
    {extraInfo : Option Jsonb} (he : failureExtraInfo float original reason = .ok extraInfo) :
    Plain extraInfo (errors++reason.toList) := by
  cases reason with
  | none =>
    cases he
    simpa using h
  | some text =>
    obtain ⟨j,rfl,hj⟩ := failureExtraInfo_some he
    exact .inr ⟨j,rfl,hj.trans (h.appendFailure text)⟩

/-- The path that a sweep sets appends its message. -/
theorem Plain.swept {q : Queue} (h : Plain original errors) {j : Jsonb}
    (hj : sweptExtraInfo q original = .ok j) : Plain (some j) (errors++[q.timeoutMessage]) := by
  refine .inr ⟨j,rfl,?_⟩
  rcases h with ⟨rfl,rfl⟩ | ⟨⟨v,hv⟩,rfl,hvalue⟩
  · cases hj
    rfl
  · obtain rfl : v = _ := hvalue
    have hfield : Json.field [("errors",.array (errors.map .string))] "errors" =
        some (.array (errors.map .string)) := rfl
    obtain ⟨hs,ha⟩ := arrow_object hv hfield
    rw [sweptExtraInfo,ha] at hj
    cases hj
    simp [concatArray,concatValues_array,concatItems,Json.setField,Json.removeField]

/-- `dead` appends the reason it is given, if any. -/
theorem deadHistory_errors (history : Option ExtraInfo) (reason : Option String) :
    (deadHistory history reason).elim [] ExtraInfo.errors =
      history.elim [] ExtraInfo.errors++reason.toList := by
  cases reason with
  | none => simp [deadHistory]
  | some text => cases history <;> simp [deadHistory,appendError]

end Writers

section Run

variable {q : Queue} {s t : Rows q} {c : Call q} {calls : List (Call q)} {id : Uuid}
  {r r' : Row q.Own} {errors : List String}

/-- The diagnostic of a claimed row that does not decode. -/
def quarantineReason (draw : ReserveDraw q) (r : Row q.Own) : Option String :=
  match decodedAs draw r with
  | .ok _ => none
  | .error error => some (reservationReason r.id draw.token error)

/-- The text with which a call releases the row under a key: the reason of a
finalization of it, the diagnostic of a reservation that selects it and finds it
malformed, or the message of a sweep that releases it. -/
def releaseText (id : Uuid) (s : Rows q) (c : Call q) : Option String :=
  match c with
  | .record _ _ _ => none
  | .reserve _ draw => if selects id s c then (s.find? id).bind (quarantineReason draw) else none
  | .finalize f _ _ _ => if ends id s c then f.reason else none
  | .sweep _ _ => if sweeps id s c then some q.timeoutMessage else none

/-- The history of a row as its writers leave it; a terminal row is not written again. -/
def Recorded (r : Row q.Own) (errors : List String) : Prop :=
  (∃ history, readExtraInfo r.extraInfo = some history ∧
    history.elim [] ExtraInfo.errors = errors) ∧ (Terminal r ∨ Plain r.extraInfo errors)

theorem Plain.recorded (h : Plain r.extraInfo errors) : Recorded r errors := ⟨h.read,.inr h⟩

/-- A call that does not act on a row releases it with no text. -/
theorem releaseText_none (hsel : selects id s c = false) (hend : ends id s c = false)
    (hsw : sweeps id s c = false) : releaseText id s c = none := by
  cases c <;> simp [releaseText,hsel,hend,hsw]

/-- Every call appends the text it releases the row with, and nothing else. -/
theorem Recorded.move (h : Recorded r errors) (hf : s.find? r.id = some r) (hm : RowMove s c r r') :
    Recorded r' (errors++(releaseText r.id s c).toList) := by
  obtain ⟨hread,hterm | hplain⟩ := h
  · obtain ⟨rfl,hsel,hend,hsw⟩ := terminal_move hterm hm
    rw [releaseText_none hsel hend hsw,Option.toList_none,List.append_nil]
    exact ⟨hread,.inl hterm⟩
  · cases hm with
    | kept hsel hend hsw =>
      rw [releaseText_none hsel hend hsw,Option.toList_none,List.append_nil]
      exact hplain.recorded
    | @selected spec draw hc hsel _ =>
      subst hc
      rw [releaseText,if_pos hsel,hf,Option.bind_some,quarantineReason]
      rcases reservedAndSettled_cases spec draw r with ⟨⟨e,hd⟩,hx⟩ | ⟨error,hd,hx⟩
      · rw [decodedAs,hd,hx,Option.toList_none,List.append_nil]
        exact Plain.recorded (r:=reservedRow draw.token draw.now r) hplain
      · rw [decodedAs,hd,hx]
        have hnext := hplain.failure (failureExtraInfo_eq q.float r.extraInfo
          (reservationReason_nulFree r.id draw.token error))
        exact hnext.recorded
    | @ended f token now _ hc hend _ hw =>
      subst hc
      rw [releaseText,if_pos hend]
      cases hw with
      | completed hf' =>
        subst hf'
        rw [Finalization.reason,Option.toList_none,List.append_nil]
        exact Plain.recorded (r:=completedRow now r) hplain
      | failed hf' he =>
        subst hf'
        exact (hplain.failure he).recorded
      | dead hf' hh hx =>
        subst hf'
        obtain ⟨history,hh',herr⟩ := hread
        rw [hh] at hh'
        cases hh'
        refine ⟨⟨_,hx,?_⟩,.inl ?_⟩
        · rw [deadHistory_errors,herr]
          rfl
        · simp [Terminal,deadRow,Status.code]
    | @swept spec now _ hc hsw _ he =>
      subst hc
      rw [releaseText,if_pos hsw]
      obtain ⟨j,hj,rfl⟩ := sweepRow_ok he
      exact (hplain.swept hj).recorded

/-- The texts with which the calls of a run released the row under a key, in order. -/
def releaseTexts (id : Uuid) (t : Rows q) (calls : List (Call q)) : List String :=
  (trace step t calls).filterMap fun x => releaseText id x.1 x.2

theorem releaseTexts_take_succ (id : Uuid) (t : Rows q) {i : ℕ} (hi : i < calls.length) :
    releaseTexts id t (calls.take (i+1)) = releaseTexts id t (calls.take i)++
      (releaseText id (stateAt step t calls i) calls[i]).toList := by
  rw [releaseTexts,trace_take_succ step t calls hi,List.filterMap_append]
  congr 1

/-- The history of a row that started without one, before any call of a run. -/
theorem recorded_run (calls : List (Call q)) (hf : t.find? id = some r) (h : r.extraInfo = none)
    {i : ℕ} (hi : i ≤ calls.length) :
    ∃ r', (stateAt step t calls i).find? id = some r' ∧
      Recorded r' (releaseTexts id t (calls.take i)) := by
  induction i with
  | zero => exact ⟨r,hf,Plain.recorded (.inl ⟨rfl,h⟩)⟩
  | succ i ih =>
    obtain ⟨r₁,hf₁,hrec⟩ := ih (by omega)
    obtain ⟨r₂,hf₂,hmove⟩ := row_move calls[i] hf₁
    have hid := Table.key_of_find? hf₁
    refine ⟨r₂,?_,?_⟩
    · rw [stateAt_succ step t calls (by omega)]
      exact hf₂
    · have hnext := hrec.move (hid.symm ▸ hf₁) hmove
      rw [hid] at hnext
      rw [releaseTexts_take_succ id t (by omega)]
      exact hnext

/-- Complete failure history: in every state of a run, the history of a row that
started without one decodes to the texts of the calls that released it. -/
theorem complete_history (name : QueueName) (float : FloatReader)
    (t : Rows (name.queue float)) (calls : List (Call (name.queue float))) {id : Uuid}
    {r : Row (name.queue float).Own} (hf : t.find? id = some r) (h : r.extraInfo = none) :
    ∀ i ≤ calls.length, ∃ r' history, (stateAt step t calls i).find? id = some r' ∧
      readExtraInfo r'.extraInfo = some history ∧
      history.elim [] ExtraInfo.errors = releaseTexts id t (calls.take i) := by
  intro i hi
  obtain ⟨r',hf',⟨history,hread,herrors⟩,_⟩ := recorded_run calls hf h hi
  exact ⟨r',history,hf',hread,herrors⟩

/-- A command that fails, is reserved again, and times out. -/
def releasedTwice : List (Call (QueueName.commands.queue .integersOnly)) :=
  [.reserve singleSpec (plainDraw (.fromU128 7) 0),
    .finalize (.failed 6 (some "refused")) (.fromU128 1) (.fromU128 7) 1,
    .reserve singleSpec (plainDraw (.fromU128 8) 30000001),
    .sweep ⟨1000000000,6⟩ 60000000]

theorem complete_history_releasedTwice :
    ∃ r' history, (stateAt step waitingTable releasedTwice 4).find? (.fromU128 1) = some r' ∧
      readExtraInfo r'.extraInfo = some history ∧
      history.elim [] ExtraInfo.errors = ["refused","command reservation timed out"] :=
  complete_history .commands .integersOnly waitingTable releasedTwice rfl rfl 4 (by decide)

end Run

end Mulac.FailureHistory
