import Mulac.SerdeJson

/-!
# Queue domain

The status codes, the error history, the retry delays and the timeout rules of
the four queues. The libraries repeat the status enumeration and the history
word for word; the delays and the timeout rules are where they differ.
-/

namespace Mulac.QueueDomain

open JsonValue Postgres SerdeJson

section Status

/-- `CommandStatus`, `EventStatus`, `InboxStatus` and `OutboxStatus`. -/
inductive Status where
  /-- Stored and awaiting a consumer. -/
  | received
  /-- Claimed by a consumer. -/
  | reserved
  /-- Attempt failed. -/
  | failed
  /-- Processed. -/
  | completed
  /-- Explicit terminal status. -/
  | dead
  /-- Archived. -/
  | archive
  deriving DecidableEq

/-- The stored code; 1, 3 and 6 are reserved gaps. -/
def Status.code : Status → ℤ
  | received => 0
  | reserved => 2
  | failed => 4
  | completed => 5
  | dead => 7
  | archive => 8

/-- `TryFrom<i32>`. -/
def Status.tryFrom (code : ℤ) : Option Status :=
  if code = 0 then some received
  else if code = 2 then some reserved
  else if code = 4 then some failed
  else if code = 5 then some completed
  else if code = 7 then some dead
  else if code = 8 then some archive
  else none

@[simp] theorem Status.tryFrom_code (s : Status) : tryFrom s.code = some s := by
  cases s <;> rfl

theorem Status.code_injective : Function.Injective Status.code := by
  intro a b h
  have := congrArg tryFrom h
  simpa using this

@[simp] theorem Status.code_inj {a b : Status} : a.code = b.code ↔ a = b :=
  code_injective.eq_iff

end Status

section History

/-- `ExtraInfo`: the error history of an entry. -/
@[ext] structure ExtraInfo where
  /-- Reasons, oldest first. -/
  errors : List String
  deriving DecidableEq

/-- `append_error`. -/
def appendError (extraInfo : Option ExtraInfo) (error : String) : ExtraInfo :=
  ⟨(extraInfo.getD ⟨[]⟩).errors++[error]⟩

/-- `serde_json::from_str::<ExtraInfoJsonb>`: an object whose `errors` is absent
or an array of strings; or, as serde reads every struct, an array that holds
the field values in order, the defaulted one possibly missing. -/
def decodeExtraInfo : Json → Option ExtraInfo
  | .object fields => (structField fields "errors").bind fun v =>
    match v with
    | none => some ⟨[]⟩
    | some v => (vecOf stringOf v).map ExtraInfo.mk
  | .array [] => some ⟨[]⟩
  | .array [v] => (vecOf stringOf v).map ExtraInfo.mk
  | _ => none

/-- `ToSql for ExtraInfoJsonb`: an empty history is skipped. -/
def encodeExtraInfo (info : ExtraInfo) : Json :=
  if info.errors = [] then .object []
  else .object [("errors",.array (info.errors.map .string))]

theorem vecOf_strings (ss : List String) : vecOf stringOf (.array (ss.map .string)) = some ss := by
  simp only [vecOf]
  induction ss with
  | nil => rfl
  | cons s ss ih => simp [stringOf,ih]

theorem vecOf_eq_strings {v : Json} {ss : List String} (h : vecOf stringOf v = some ss) :
    v = .array (ss.map .string) := by
  cases v with
  | array items =>
    simp only [vecOf] at h
    congr
    induction items generalizing ss with
    | nil => cases h; rfl
    | cons v items ih =>
      simp only [List.mapM_cons,Option.pure_def,Option.bind_eq_bind,Option.bind_eq_some_iff] at h
      obtain ⟨s,hs,rest,hr,he⟩ := h
      cases he
      rw [stringOf_eq_some.mp hs,ih hr,List.map_cons]
  | null => cases h
  | bool b => cases h
  | number n => cases h
  | string s => cases h
  | object fields => cases h

/-- What is written for a history reads back as that history. -/
@[simp] theorem decodeExtraInfo_encode (info : ExtraInfo) :
    decodeExtraInfo (encodeExtraInfo info) = some info := by
  obtain ⟨errors⟩ := info
  by_cases h : errors = []
  · simp [encodeExtraInfo,decodeExtraInfo,structField,h]
  · simp [encodeExtraInfo,decodeExtraInfo,structField,h,vecOf_strings]

theorem allTextsItems_strings {p : String → Bool} {ss : List String} :
    Json.allTextsItems p (ss.map .string) = true ↔ ∀ s ∈ ss, p s = true := by
  rw [Json.allTextsItems_iff]
  simp [Json.allTexts]

/-- A history without U+0000 can be stored. -/
theorem encodeExtraInfo_storable {info : ExtraInfo} :
    (encodeExtraInfo info).allTexts nulFree = true ↔ ∀ e ∈ info.errors, nulFree e = true := by
  unfold encodeExtraInfo
  split
  · next h => simp [h,Json.allTexts,Json.allTextsFields]
  · have hk : nulFree "errors" = true := by decide
    simp [Json.allTexts,Json.allTextsFields,hk,allTextsItems_strings]

/-- The history of a stored value holds no U+0000. -/
theorem decodeExtraInfo_storable {j : Jsonb} {info : ExtraInfo}
    (h : decodeExtraInfo j.value = some info) : ∀ e ∈ info.errors, nulFree e = true := by
  obtain ⟨v,hv⟩ := j
  have hvec : ∀ w : Json, w.allTexts nulFree = true →
      (vecOf stringOf w).map ExtraInfo.mk = some info → ∀ e ∈ info.errors, nulFree e = true := by
    intro w hw hs
    obtain ⟨ss,hss,rfl⟩ := Option.map_eq_some_iff.mp hs
    rw [vecOf_eq_strings hss] at hw
    exact allTextsItems_strings.mp hw
  cases v with
  | object fields =>
    simp only [decodeExtraInfo] at h
    obtain ⟨o,ho,h⟩ := Option.bind_eq_some_iff.mp h
    cases o with
    | none => cases h; simp
    | some w => exact hvec w (Json.allTexts_field nulFree hv (field_of_structField ho)) h
  | array items =>
    rcases items with _ | ⟨w,_ | ⟨w',items⟩⟩
    · cases h; simp
    · simp only [Json.allTexts,Json.allTextsItems,Bool.and_true] at hv
      exact hvec w hv h
    · cases h
  | null => cases h
  | bool b => cases h
  | number n => cases h
  | string s => cases h

end History

section Timing

/-- A `timestamptz`, in microseconds. The times of a row are such as chrono can represent: the
load of any other fails, `-infinity` among them. -/
abbrev Timestamp := ℤ

/-- A time of chrono, in nanoseconds. -/
abbrev Instant := ℤ

/-- A timestamp as chrono reads it. -/
def nanoseconds (time : Timestamp) : Instant := time*1000

/-- 2000-01-01, from where Postgres counts. -/
def postgresEpoch : Timestamp := 946684800000000

/-- A time of chrono as a statement binds it: `num_microseconds` since the epoch of
Postgres, which drops what is left of a microsecond. -/
def boundTime (time : Instant) : Timestamp :=
  postgresEpoch+(time-nanoseconds postgresEpoch).tdiv 1000

@[simp] theorem boundTime_nanoseconds (time : Timestamp) : boundTime (nanoseconds time) = time := by
  unfold boundTime nanoseconds
  have hsub : time*1000-postgresEpoch*1000 = (time-postgresEpoch)*1000 :=
    (Int.sub_mul time postgresEpoch 1000).symm
  rw [hsub,Int.mul_tdiv_cancel _ (by decide)]
  exact add_sub_cancel postgresEpoch time

theorem boundTime_mono {a b : Instant} (h : a ≤ b) : boundTime a ≤ boundTime b := by
  have hsub : a-nanoseconds postgresEpoch ≤ b-nanoseconds postgresEpoch := Int.sub_le_sub_right h _
  exact Int.add_le_add_left (Int.tdiv_le_tdiv (by decide) hsub) postgresEpoch

/-- Truncation towards zero loses the thousand that it cuts, unless it rounds upwards. -/
theorem lt_tdiv_thousand (n d : ℤ) :
    n < d.tdiv 1000 ↔ n*1000 < d ∧ ¬(0 ≤ n ∧ d < (n+1)*1000) := by
  rw [Int.tdiv_eq_ediv]
  split
  · omega
  · have hsign : (1000:ℤ).sign = 1 := rfl
    rw [hsign]
    omega

/-- The microsecond in which a cutoff falls: a time that is earlier than the cutoff, but not
earlier than what is bound of it. Before 2000 the rest is dropped upwards and there is none. -/
def cutShort (cutoff : Instant) (time : Timestamp) : Prop :=
  postgresEpoch ≤ time ∧ nanoseconds time < cutoff ∧ cutoff < nanoseconds (time+1)

/-- A bound cutoff comes after what the cutoff comes after, but for one microsecond. -/
theorem lt_boundTime_iff (cutoff : Instant) (time : Timestamp) :
    time < boundTime cutoff ↔ nanoseconds time < cutoff ∧ ¬cutShort cutoff time := by
  have hcut : ∀ c t e : ℤ, t < e+(c-e*1000).tdiv 1000 ↔
      t*1000 < c ∧ ¬(e ≤ t ∧ t*1000 < c ∧ c < (t+1)*1000) := by
    intro c t e
    have htrunc := lt_tdiv_thousand (t-e) (c-e*1000)
    omega
  exact hcut cutoff time postgresEpoch

/-- `interval '1 second'` times a number. -/
def seconds (n : ℤ) : ℤ := n*1000000

/-- `RETRY_BACKOFF_SECONDS`. -/
def retryBackoffSeconds : ℤ := 30

/-- `MAX_RETRY_BACKOFF_SECONDS` and `RETRY_BACKOFF_CAP_SECONDS`. -/
def retryBackoffCapSeconds : ℤ := 120

/-- The delay that commanding's, eventing's and outbox's `write_failure` computes. -/
def cappedDelay (attempts : ℤ) : ℤ :=
  min (max attempts 1*retryBackoffSeconds) retryBackoffCapSeconds

/-- The delay that inbox's `write_failure` computes. -/
def uncappedDelay (attempts : ℤ) : ℤ := max attempts 1*retryBackoffSeconds

/-- `ReservationTimeoutPolicy`. -/
structure ReservationTimeoutPolicy where
  /-- Reservations strictly older than this are stale. -/
  reservedBefore : Instant
  /-- The retry limit. -/
  maxAttempts : ℤ

/-- Timeout outcome of a command: `status_after_timeout` and `retry_delay`. -/
def commandOutcome (_policy : ReservationTimeoutPolicy) (attempts : ℤ) (now _previous : Timestamp) :
    Status × Timestamp :=
  (.failed,now+seconds (30*attempts))

/-- `outcome` of eventing. -/
def eventOutcome (_policy : ReservationTimeoutPolicy) (attempts : ℤ) (now _previous : Timestamp) :
    Status × Timestamp :=
  (.failed,now+seconds (attempts*30))

/-- `outcome` of inbox. -/
def inboxOutcome (_policy : ReservationTimeoutPolicy) (attempts : ℤ) (now _previous : Timestamp) :
    Status × Timestamp :=
  (.failed,now+seconds (attempts*30))

/-- `outcome` of outbox: capped, and an exhausted entry keeps its schedule. -/
def outboxOutcome (policy : ReservationTimeoutPolicy) (attempts : ℤ) (now previous : Timestamp) :
    Status × Timestamp :=
  (.failed,if policy.maxAttempts ≤ attempts then previous
    else now+seconds (min (max attempts 1*30) 120))

end Timing

end Mulac.QueueDomain
