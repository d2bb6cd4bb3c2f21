import Mathlib
import Listing.Column
import Listing.Store.Cell

/-! The order of stored values.
A table holds dates and moments as texts of fixed width, the largest unit first, so that the order
of the texts by code point is the order of the values in time. -/
namespace Listing

namespace Text

theorem lt_append_iff {s s' t t' : List Char} (h : s.length = s'.length) :
    s ++ t < s' ++ t' ↔ s < s' ∨ s = s' ∧ t < t' := by
  induction s generalizing s' with
  | nil =>
    obtain rfl := List.length_eq_zero_iff.mp h.symm
    simp
  | cons c s ih =>
    cases s' with
    | nil => cases h
    | cons d s' =>
      have htail := ih (Nat.succ.inj h)
      rw [List.cons_append, List.cons_append, List.cons_lt_cons_iff, List.cons_lt_cons_iff, htail,
        List.cons.injEq]
      tauto

theorem injective_of_lt {α β : Type} [Preorder β] {f : α → β} {before : α → α → Prop}
    (hlt : ∀ a b, before a b → f a < f b) (htotal : ∀ a b, before a b ∨ a = b ∨ before b a) :
    Function.Injective f := by
  intro a b h
  rcases htotal a b with hab | hab | hab
  · exact absurd h (hlt a b hab).ne
  · exact hab
  · exact absurd h (hlt b a hab).ne'

end Text

namespace Number
open Text

theorem digitChar_lt_iff {a b : Nat} (ha : a < 10) (hb : b < 10) :
    digitChar a < digitChar b ↔ a < b := by
  have hall : ∀ a b : Fin 10, digitChar a < digitChar b ↔ a < b := by decide
  exact hall ⟨a, ha⟩ ⟨b, hb⟩

theorem digitChar_inj {a b : Nat} (ha : a < 10) (hb : b < 10) :
    digitChar a = digitChar b ↔ a = b := by
  have hall : ∀ a b : Fin 10, digitChar a = digitChar b ↔ a = b := by decide
  exact (hall ⟨a, ha⟩ ⟨b, hb⟩).trans Fin.mk.inj_iff

variable {width a b : Nat}

theorem fixed_inj (ha : a < 10 ^ width) (hb : b < 10 ^ width) :
    fixed width a = fixed width b ↔ a = b := by
  induction width generalizing a b with
  | zero =>
    simp only [pow_zero, Nat.lt_one_iff] at ha hb
    simp [ha, hb]
  | succ width ih =>
    have hhigh : fixed width (a / 10) = fixed width (b / 10) ↔ a / 10 = b / 10 :=
      ih (by omega) (by omega)
    have hlow : digitChar (a % 10) = digitChar (b % 10) ↔ a % 10 = b % 10 :=
      digitChar_inj (Nat.mod_lt _ (by omega)) (Nat.mod_lt _ (by omega))
    refine ⟨fun h => ?_, congrArg _⟩
    obtain ⟨hhead, hlast⟩ := List.append_inj' h rfl
    have hdigit := hlow.mp (List.cons.inj hlast).1
    have hrest := hhigh.mp hhead
    omega

theorem fixed_lt_iff (ha : a < 10 ^ width) (hb : b < 10 ^ width) :
    fixed width a < fixed width b ↔ a < b := by
  induction width generalizing a b with
  | zero =>
    simp only [pow_zero, Nat.lt_one_iff] at ha hb
    simp [ha, hb]
  | succ width ih =>
    have hlength : (fixed width (a / 10)).length = (fixed width (b / 10)).length := by
      rw [fixed_length, fixed_length]
    have hlow : digitChar (a % 10) < digitChar (b % 10) ↔ a % 10 < b % 10 :=
      digitChar_lt_iff (Nat.mod_lt _ (by omega)) (Nat.mod_lt _ (by omega))
    -- The higher digits decide, and where they agree the last one does.
    rw [fixed, fixed, lt_append_iff hlength, ih (by omega) (by omega),
      fixed_inj (by omega) (by omega), List.cons_lt_cons_iff, hlow]
    simp only [List.not_lt_nil, and_false, or_false]
    omega

end Number

namespace Calendar
open Number Text

theorem monthLength_le (year month : Nat) : monthLength year month ≤ 31 := by
  have hall : ∀ n ∈ monthLengths year, n ≤ 31 := by
    unfold monthLengths
    split <;> decide
  unfold monthLength
  split
  · decide
  · rename_i m
    cases hm : (monthLengths year)[m]? with
    | none => exact Nat.zero_le _
    | some n => exact hall n (List.mem_of_getElem? hm)

def Date.Before (a b : Date) : Prop :=
  a.year < b.year ∨ a.year = b.year ∧ (a.month < b.month ∨ a.month = b.month ∧ a.day < b.day)

def Time.Before (a b : Time) : Prop :=
  a.hour < b.hour ∨ a.hour = b.hour ∧ (a.minute < b.minute ∨ a.minute = b.minute ∧
    (a.second < b.second ∨ a.second = b.second ∧ a.microsecond < b.microsecond))

/-- The order of what a calendar and a clock show; offsets are left out. -/
def DateTime.Before (a b : DateTime) : Prop :=
  a.date.Before b.date ∨ a.date = b.date ∧ a.time.Before b.time

theorem Date.bounds (d : Date) : d.year < 10 ^ 4 ∧ d.month < 10 ^ 2 ∧ d.day < 10 ^ 2 := by
  obtain ⟨hyear, hmonth, -, hday⟩ := d.valid
  have hlength := monthLength_le d.year d.month
  omega

theorem Date.text_lt_iff {a b : Date} : a.text < b.text ↔ a.Before b := by
  obtain ⟨hya, hma, hda⟩ := a.bounds
  obtain ⟨hyb, hmb, hdb⟩ := b.bounds
  simp only [text, List.append_assoc, List.cons_append]
  rw [lt_append_iff (by simp only [fixed_length]), List.cons_lt_cons_self,
    lt_append_iff (by simp only [fixed_length]), List.cons_lt_cons_self, fixed_lt_iff hya hyb,
    fixed_lt_iff hma hmb, fixed_lt_iff hda hdb, fixed_inj hya hyb, fixed_inj hma hmb]
  rfl

theorem Date.before_trichotomy (a b : Date) : a.Before b ∨ a = b ∨ b.Before a := by
  rcases a with ⟨y, m, d, _⟩
  rcases b with ⟨y', m', d', _⟩
  simp only [Before, Date.mk.injEq]
  omega

theorem Date.text_injective : Function.Injective Date.text :=
  injective_of_lt (fun _ _ => text_lt_iff.mpr) before_trichotomy

theorem Date.text_inj {a b : Date} : a.text = b.text ↔ a = b := text_injective.eq_iff

theorem Time.fullText_lt_iff {a b : Time} : a.fullText < b.fullText ↔ a.Before b := by
  obtain ⟨hha, hma, hsa, hua⟩ := a.valid
  obtain ⟨hhb, hmb, hsb, hub⟩ := b.valid
  simp only [fullText, List.append_assoc, List.cons_append]
  rw [lt_append_iff (by simp only [fixed_length]), List.cons_lt_cons_self,
    lt_append_iff (by simp only [fixed_length]), List.cons_lt_cons_self,
    lt_append_iff (by simp only [fixed_length]), List.cons_lt_cons_self,
    fixed_lt_iff (by omega) (by omega), fixed_lt_iff (by omega) (by omega),
    fixed_lt_iff (by omega) (by omega), fixed_lt_iff (by omega) (by omega),
    fixed_inj (by omega) (by omega), fixed_inj (by omega) (by omega),
    fixed_inj (by omega) (by omega)]
  rfl

theorem Time.before_trichotomy (a b : Time) : a.Before b ∨ a = b ∨ b.Before a := by
  rcases a with ⟨h, m, s, u, _⟩
  rcases b with ⟨h', m', s', u', _⟩
  simp only [Before, Time.mk.injEq]
  omega

theorem Time.fullText_injective : Function.Injective Time.fullText :=
  injective_of_lt (fun _ _ => fullText_lt_iff.mpr) before_trichotomy

theorem Time.fullText_inj {a b : Time} : a.fullText = b.fullText ↔ a = b :=
  fullText_injective.eq_iff

theorem Date.text_length (d : Date) : d.text.length = 10 := by
  simp [text, fixed_length]

end Calendar

/-- The values of the types whose order a table keeps; moments without an offset. -/
inductive ColumnType.Holds : ColumnType → Scalar → Prop
  | text (s : String) : Holds .text (.text s)
  | integer (n : Int) : Holds .integer (.int n)
  | date (d : Calendar.Date) : Holds .date (.date d)
  | datetime (d : Calendar.Date) (t : Calendar.Time) : Holds .datetime (.datetime ⟨d, t, none⟩)

def Scalar.Before : Scalar → Scalar → Prop
  | .text s, .text t => s < t
  | .int m, .int n => m < n
  | .date a, .date b => a.Before b
  | .datetime a, .datetime b => a.Before b
  | _, _ => False

namespace Store
open Calendar

theorem dateText_lt_iff {a b : Date} :
    String.ofList a.text < String.ofList b.text ↔ a.Before b := by
  rw [String.lt_iff_toList_lt, String.toList_ofList, String.toList_ofList, Date.text_lt_iff]

theorem momentText_lt_iff {a b : DateTime} : momentText a < momentText b ↔ a.Before b := by
  rw [momentText, momentText, String.lt_iff_toList_lt, String.toList_ofList, String.toList_ofList,
    Text.lt_append_iff (by rw [Date.text_length, Date.text_length]), List.cons_lt_cons_self,
    Date.text_lt_iff, Date.text_inj, Time.fullText_lt_iff]
  rfl

theorem momentText_inj {a b : DateTime} :
    momentText a = momentText b ↔ a.date = b.date ∧ a.time = b.time := by
  rw [momentText, momentText, String.ofList_inj, ← Date.text_inj, ← Time.fullText_inj]
  constructor
  · intro h
    obtain ⟨hdate, htime⟩ := List.append_inj h (by rw [Date.text_length, Date.text_length])
    exact ⟨hdate, (List.cons.inj htime).2⟩
  · intro h
    rw [h.1, h.2]

namespace Cell

structure Orders (u w : Scalar) : Prop where
  lt : (ofScalar u).compare? (ofScalar w) = some .lt ↔ u.Before w
  eq : (ofScalar u).compare? (ofScalar w) = some .eq ↔ u = w
  gt : (ofScalar u).compare? (ofScalar w) = some .gt ↔ w.Before u

theorem compare?_integer (m n : Int) : (integer m).compare? (integer n) = some (compare m n) := rfl

theorem compare?_text (s t : String) : (text s).compare? (text t) = some (compare s t) := rfl

theorem orders_of_text {u w : Scalar} {s t : String} (hu : ofScalar u = text s)
    (hw : ofScalar w = text t) (hlt : s < t ↔ u.Before w) (heq : s = t ↔ u = w)
    (hgt : t < s ↔ w.Before u) : Orders u w := by
  refine ⟨?_, ?_, ?_⟩ <;> rw [hu, hw, compare?_text, Option.some.injEq]
  · rw [compare_lt_iff_lt, hlt]
  · rw [compare_eq_iff_eq, heq]
  · rw [compare_gt_iff_gt, hgt]

theorem orders_ofScalar {type : ColumnType} {u w : Scalar} (hu : type.Holds u)
    (hw : type.Holds w) : Orders u w := by
  cases hu with
  | text s =>
    obtain ⟨t⟩ := hw
    exact orders_of_text rfl rfl Iff.rfl (by simp) Iff.rfl
  | integer m =>
    obtain ⟨n⟩ := hw
    refine ⟨?_, ?_, ?_⟩ <;> rw [ofScalar, ofScalar, compare?_integer, Option.some.injEq]
    · exact compare_lt_iff_lt
    · rw [compare_eq_iff_eq, Scalar.int.injEq]
    · exact compare_gt_iff_gt
  | date d =>
    obtain ⟨e⟩ := hw
    refine orders_of_text rfl rfl dateText_lt_iff ?_ dateText_lt_iff
    rw [String.ofList_inj, Date.text_inj, Scalar.date.injEq]
  | datetime d t =>
    obtain ⟨e, u⟩ := hw
    refine orders_of_text rfl rfl momentText_lt_iff ?_ momentText_lt_iff
    rw [momentText_inj]
    simp

end Cell
end Store
end Listing
