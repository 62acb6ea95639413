import Mathlib.Data.List.Basic
import Mathlib.Tactic.Common
import Mathlib.Tactic.IntervalCases

/-!
# Identifiers

Every entry id, reservation token and correlation id is a `uuid::Uuid`. It is
written in the hyphenated lower-case form and read back in the forms that
`Uuid::parse_str` accepts.
-/

namespace Mulac.Identifiers

/-- A `uuid::Uuid`. -/
@[ext] structure Uuid where
  /-- The identifier's 128 bits. -/
  bits : BitVec 128
  deriving DecidableEq

/-- `Uuid::from_u128`. -/
def Uuid.fromU128 (n : ℕ) : Uuid := ⟨BitVec.ofNat 128 n⟩

section Hexadecimal

/-- The low `k` hexadecimal digits of a number, highest first. -/
def hexDigits : ℕ → ℕ → List Char
  | 0,_ => []
  | k+1,n => hexDigits k (n/16)++[Nat.digitChar (n%16)]

/-- The value of one hexadecimal digit of either case. -/
def hexValue (c : Char) : Option ℕ :=
  if '0' ≤ c ∧ c ≤ '9' then some (c.toNat-48)
  else if 'a' ≤ c ∧ c ≤ 'f' then some (c.toNat-87)
  else if 'A' ≤ c ∧ c ≤ 'F' then some (c.toNat-55)
  else none

/-- The number a string of hexadecimal digits denotes. -/
def parseHex (cs : List Char) : Option ℕ :=
  cs.foldlM (fun acc c => (hexValue c).map (acc*16+·)) 0

@[simp] theorem hexDigits_length (k n : ℕ) : (hexDigits k n).length = k := by
  induction k generalizing n with
  | zero => rfl
  | succ k ih => simp [hexDigits,ih]

theorem hexValue_digitChar {n : ℕ} (h : n < 16) : hexValue (Nat.digitChar n) = some n := by
  interval_cases n <;> decide

/-- Written digits read back as the number they were taken from. -/
theorem parseHex_hexDigits (k n : ℕ) : parseHex (hexDigits k n) = some (n%16^k) := by
  induction k generalizing n with
  | zero => simp [parseHex,hexDigits,Nat.mod_one]
  | succ k ih =>
    have hd : hexValue (Nat.digitChar (n%16)) = some (n%16) :=
      hexValue_digitChar (Nat.mod_lt _ (by decide))
    have hs := ih (n/16)
    unfold parseHex at hs
    rw [parseHex,hexDigits,List.foldlM_append,hs]
    simp only [Option.bind_eq_bind,Option.bind_some,List.foldlM_cons,List.foldlM_nil,hd,
      Option.map_some,Option.pure_def,Option.some.injEq]
    rw [pow_succ',Nat.mod_mul]
    omega

theorem digitChar_ne_nul {n : ℕ} (h : n < 16) : Nat.digitChar n ≠ '\x00' := by
  interval_cases n <;> decide

theorem hexDigits_no_nul (k n : ℕ) : '\x00' ∉ hexDigits k n := by
  induction k generalizing n with
  | zero => simp [hexDigits]
  | succ k ih =>
    simp only [hexDigits,List.mem_append,List.mem_singleton,not_or]
    exact ⟨ih _,(digitChar_ne_nul (Nat.mod_lt _ (by decide))).symm⟩

end Hexadecimal

namespace Uuid

/-- The 32 digits of an identifier. -/
def digits (u : Uuid) : List Char := hexDigits 32 u.bits.toNat

/-- Digits grouped 8-4-4-4-12. -/
def hyphenate (ds : List Char) : List Char :=
  ds.take 8++ '-'::((ds.drop 8).take 4++ '-'::((ds.drop 12).take 4++ '-'::
    ((ds.drop 16).take 4++ '-'::ds.drop 20)))

/-- The digits of a grouped form, and nothing when a hyphen is not in place. -/
def unhyphenate (cs : List Char) : Option (List Char) :=
  if cs[8]? = some '-' ∧ cs[13]? = some '-' ∧ cs[18]? = some '-' ∧ cs[23]? = some '-' then
    some (cs.take 8++(cs.drop 9).take 4++(cs.drop 14).take 4++(cs.drop 19).take 4++cs.drop 24)
  else none

/-- `Display for Uuid`. -/
def display (u : Uuid) : String := String.ofList (hyphenate u.digits)

instance : ToString Uuid := ⟨display⟩

/-- `parse_simple`: 32 digits. -/
def parseSimple (cs : List Char) : Option Uuid := (parseHex cs).map fromU128

/-- `parse_hyphenated`: 36 characters with hyphens in place. -/
def parseHyphenated (cs : List Char) : Option Uuid := (unhyphenate cs).bind parseSimple

/-- The prefix of the URN form, in whatever case. -/
def urnPrefix (cs : List Char) : Bool := (cs.take 9).map Char.toLower = "urn:uuid:".toList

/-- `Uuid::parse_str`: the simple, hyphenated, braced and URN forms. The source
counts bytes; a text whose bytes and characters differ in number holds a
character that no form accepts, so both counts reject it. -/
def parseStr (s : String) : Option Uuid :=
  let cs := s.toList
  match cs.length with
  | 32 => parseSimple cs
  | 36 => parseHyphenated cs
  | 38 => if cs.head? = some '{' ∧ cs.getLast? = some '}' then
      parseHyphenated ((cs.drop 1).dropLast) else none
  | 45 => if urnPrefix cs then parseHyphenated (cs.drop 9) else none
  | _ => none

theorem fromU128_toNat (u : Uuid) : fromU128 u.bits.toNat = u := by
  simp [fromU128]

theorem unhyphenate_hyphenate {ds : List Char} (h : ds.length = 32) :
    unhyphenate (hyphenate ds) = some ds := by
  obtain ⟨a,b,c,d,e,rfl,ha,hb,hc,hd⟩ : ∃ a b c d e : List Char, ds = a++(b++(c++(d++e))) ∧
      a.length = 8 ∧ b.length = 4 ∧ c.length = 4 ∧ d.length = 4 := by
    refine ⟨ds.take 8,(ds.drop 8).take 4,(ds.drop 12).take 4,(ds.drop 16).take 4,ds.drop 20,
      ?_,?_,?_,?_,?_⟩
    · have hstep : ∀ k j, ds.drop k = (ds.drop k).take j++ds.drop (k+j) := by
        intro k j
        rw [← List.drop_drop,List.take_append_drop]
      conv_lhs => rw [← List.take_append_drop 8 ds,hstep 8 4,hstep 12 4,hstep 16 4]
    all_goals simp only [List.length_take,List.length_drop,h]; rfl
  have hh : hyphenate (a++(b++(c++(d++e)))) = a++ '-'::(b++ '-'::(c++ '-'::(d++ '-'::e))) := by
    simp [hyphenate,List.drop_append,List.drop_eq_nil_of_le,ha,hb,hc,hd]
  rw [hh]
  simp [unhyphenate,List.drop_append,List.getElem?_append,
    List.drop_eq_nil_of_le,ha,hb,hc,hd]

theorem hyphenate_length {ds : List Char} (h : ds.length = 32) :
    (hyphenate ds).length = 36 := by
  simp [hyphenate,h]

@[simp] theorem digits_length (u : Uuid) : u.digits.length = 32 := hexDigits_length _ _

theorem parseSimple_digits (u : Uuid) : parseSimple u.digits = some u := by
  have hlt : u.bits.toNat < 16^32 := u.bits.isLt
  rw [parseSimple,digits,parseHex_hexDigits,Nat.mod_eq_of_lt hlt,Option.map_some,fromU128_toNat]

/-- What is written for an identifier reads back as that identifier. -/
@[simp] theorem parseStr_display (u : Uuid) : parseStr u.display = some u := by
  have hl := hyphenate_length (digits_length u)
  simp only [parseStr,display,String.toList_ofList,hl,parseHyphenated,
    unhyphenate_hyphenate (digits_length u),Option.bind_some,parseSimple_digits]

example : parseStr "URN:UUID:00000000-0000-0000-0000-00000000000A" = some (fromU128 10) := by
  decide

theorem hyphenate_no_nul {ds : List Char} (h : '\x00' ∉ ds) : '\x00' ∉ hyphenate ds := by
  have ht : ∀ k, '\x00' ∉ ds.take k := fun k hm => h (List.mem_of_mem_take hm)
  have hd : ∀ k, '\x00' ∉ ds.drop k := fun k hm => h (List.mem_of_mem_drop hm)
  have hdt : ∀ k j, '\x00' ∉ (ds.drop k).take j := fun k j hm => hd k (List.mem_of_mem_take hm)
  simp [hyphenate,ht,hd,hdt]

/-- A written identifier holds no U+0000. -/
theorem display_no_nul (u : Uuid) : '\x00' ∉ u.display.toList := by
  rw [display,String.toList_ofList]
  exact hyphenate_no_nul (hexDigits_no_nul _ _)

end Uuid

end Mulac.Identifiers
