import Mathlib
import Listing.Proofs.Clauses
import Listing.Proofs.WrittenIdentifiers
import Listing.Proofs.WrittenTimes

/-! Values of columns that are written and read again.
Truth values, numbers, dates, moments, identifiers and members of enumerations have canonical texts,
and with blanks around it such a text is read as its value. Several texts are read one by one, in
their order. Two texts are lost: an offset of less than a second is read as zero, and a name with
blanks at its ends is looked for without them. -/
namespace Listing.ColumnType
open Listing.Text Listing.Number Listing.Calendar

/-- The text of a member's value has no blanks at its ends and is neither name nor text of another
member. -/
def Unambiguous (members : List (String × String)) : Prop :=
  ∀ m ∈ members, Trimmed m.2.toList ∧ ∀ m' ∈ members, m' ≠ m → m.2 ≠ m'.1 ∧ m.2 ≠ m'.2

def truthText (b : Bool) : String := if b then "true" else "false"

/-- The canonical texts of values. Dates are also written in columns of moments, and moments in columns
of dates. -/
inductive Writes : ColumnType → List Char → Scalar → Prop
  | truth (b : Bool) {t : List Char}
      (h : t.map Char.toLower = (truthText b).toList) :
    Writes .boolean t (.bool b)
  | whole (n : Int) (h : (Number.decimal n.natAbs).length ≤ 4300) :
    Writes .integer (intText n).toList (.int n)
  | number (negative : Bool) {coefficient : Nat} {exponent : Int}
      (h : Decimal.inRange coefficient exponent = true) :
    Writes .decimal (Decimal.finite negative coefficient exponent).text.toList
      (.decimal (.finite negative coefficient exponent))
  | day (d : Date) : Writes .date d.text (.date d)
  | moment (m : DateTime) (h : ∀ o, m.offset = some o → o.Readable) :
    Writes .datetime m.text (.datetime m)
  | identifier (u : Uuid) : Writes .uuid u.text (.uuid u)
  | name (enumeration : String) {members : List (String × String)} {m : String × String}
      (hm : m ∈ members) (h : Unambiguous members) (htrimmed : Trimmed m.1.toList) :
    Writes (.enumeration enumeration members) m.1.toList (.member enumeration m.1)
  | value (enumeration : String) {members : List (String × String)} {m : String × String}
      (hm : m ∈ members) (h : Unambiguous members) :
    Writes (.enumeration enumeration members) m.2.toList (.member enumeration m.1)
  | dayOf (m : DateTime) : Writes .date m.text (.date m.date)
  | midnightOf (d : Date) : Writes .datetime d.text (.datetime (.midnight d))
  | letter {m : DateTime} (h : m.offset = none) :
    Writes .datetime (m.text ++ ['Z']) (.datetime { m with offset := some Offset.zero })
  | atZero {m : DateTime} (h : m.offset = none) :
    Writes .datetime (m.text ++ "+00:00".toList) (.datetime { m with offset := some Offset.zero })

inductive Spells (type : ColumnType) : String → Scalar → Prop
  | around {before t after : List Char} {v : Scalar} (hbefore : ∀ c ∈ before, isBlank c = true)
      (hafter : ∀ c ∈ after, isBlank c = true) (h : type.Writes t v) :
    Spells type (String.ofList (before ++ t ++ after)) v

theorem isBlank_toLower (c : Char) : isBlank c.toLower = isBlank c := by
  unfold Char.toLower
  split
  case isTrue h =>
    have hlow : 0x41 ≤ c.toNat := UInt32.le_iff_toNat_le.mp h.1
    have hhigh : c.toNat ≤ 0x5A := UInt32.le_iff_toNat_le.mp h.2
    have hlower : (c.val + ('a'.val - 'A'.val)).toNat = c.toNat + 0x20 := by
      rw [UInt32.toNat_add]
      exact Nat.mod_eq_of_lt (show c.toNat + 0x20 < 2 ^ 32 by omega)
    rw [not_isBlank_of_visible (c := c) (by omega) (by omega)]
    apply not_isBlank_of_visible
    · exact lt_of_lt_of_eq (show 0x20 < c.toNat + 0x20 by omega) hlower.symm
    · exact lt_of_eq_of_lt hlower (by omega)
  case isFalse => rfl

theorem trimmed_of_lower {s t : List Char} (h : t.map Char.toLower = s) (hs : Trimmed s) :
    Trimmed t := by
  subst h
  constructor
  · intro c hc
    rw [← isBlank_toLower]
    apply hs.1
    rw [List.head?_map, hc]
    rfl
  · intro c hc
    rw [← isBlank_toLower]
    apply hs.2
    rw [List.getLast?_map, hc]
    rfl

theorem trimmed_truthText (b : Bool) : Trimmed (truthText b).toList := by
  apply trimmed_of_not_blank
  intro c hc
  cases b <;> fin_cases hc <;> rfl

theorem trimmed_of_isFigure {t : List Char} (h : ∀ c ∈ t, IsFigure c) : Trimmed t :=
  trimmed_of_not_blank fun c hc => (h c hc).not_isBlank

variable {type : ColumnType} {t : List Char} {v : Scalar} {field s : String}

theorem trimmed_of_writes (h : type.Writes t v) : Trimmed t := by
  cases h with
  | truth b h => exact trimmed_of_lower h (trimmed_truthText b)
  | whole n => exact trimmed_of_not_blank fun c => not_isBlank_of_mem_intText
  | number negative => exact trimmed_of_isFigure (Decimal.isFigure_text _ _ _)
  | day d | midnightOf d => exact trimmed_of_isFigure d.isFigure_text
  | moment m | dayOf m => exact trimmed_of_not_blank m.not_isBlank_text
  | identifier u => exact trimmed_of_not_blank u.not_isBlank_of_mem_text
  | name _ _ _ htrimmed => exact htrimmed
  | value _ hm h => exact (h _ hm).1
  | @letter m =>
    apply trimmed_of_not_blank
    exact List.forall_mem_append.mpr ⟨m.not_isBlank_text, List.forall_mem_singleton.mpr rfl⟩
  | atZero h =>
    rw [← DateTime.text_atZero h]
    exact trimmed_of_not_blank (DateTime.not_isBlank_text _)

theorem truthOf?_of_lower {b : Bool} (h : t.map Char.toLower = (truthText b).toList) :
    truthOf? t = some b := by
  rw [truthOf?, h]
  cases b <;> rfl

theorem read_nil {kind : String} {read : List Char → Option Scalar}
    (h : type.reader? = some (kind, read)) : read [] = none := by
  cases type <;> cases h <;> rfl

theorem readText_of_reader? {kind : String} {read : List Char → Option Scalar}
    (h : type.reader? = some (kind, read)) (hread : read (trim s.toList) = some v) :
    type.readText field s = .ok v := by
  have hne : (trim s.toList).isEmpty = false := by
    apply List.isEmpty_eq_false_iff.mpr
    intro hnil
    rw [hnil, read_nil h] at hread
    cases hread
  cases type <;> cases h <;> simp only [readText, reader?, hne, hread] <;> rfl

section Enumeration
variable {members : List (String × String)} {m : String × String}

theorem memberOf?_eq_some (hm : m ∈ members) (hs : m.2 = s ∨ m.1 = s)
    (hall : ∀ m' ∈ members, m'.2 = s ∨ m'.1 = s → m'.1 = m.1) :
    memberOf? members s = some m.1 := by
  have hfound : (members.find? fun m => m.2 == s || m.1 == s).isSome = true := by
    rw [List.find?_isSome]
    exact ⟨m, hm, by simpa using hs⟩
  obtain ⟨m', hm'⟩ := Option.isSome_iff_exists.mp hfound
  have hstands : m'.2 = s ∨ m'.1 = s := by simpa using List.find?_some hm'
  rw [memberOf?, hm', Option.map_some, hall m' (List.mem_of_find?_eq_some hm') hstands]

theorem memberOf?_name (h : Unambiguous members) (hm : m ∈ members) :
    memberOf? members m.1 = some m.1 := by
  apply memberOf?_eq_some hm (.inr rfl)
  rintro m' hm' (hvalue | hname)
  · by_contra hne
    have hother : m ≠ m' := fun heq => hne (congrArg Prod.fst heq.symm)
    exact ((h m' hm').2 m hm hother).1 hvalue
  · exact hname

theorem memberOf?_value (h : Unambiguous members) (hm : m ∈ members) :
    memberOf? members m.2 = some m.1 := by
  apply memberOf?_eq_some hm (.inl rfl)
  intro m' hm' hstands
  by_contra hne
  have hother : m' ≠ m := fun heq => hne (congrArg Prod.fst heq)
  obtain ⟨hname, hvalue⟩ := (h m hm).2 m' hm' hother
  rcases hstands with htext | htext
  · exact hvalue htext.symm
  · exact hname htext.symm

theorem readText_member {enumeration : String} (h : memberOf? members (strip s) = some m.1) :
    readText (.enumeration enumeration members) field s = .ok (.member enumeration m.1) := by
  simp only [readText, h]

end Enumeration

theorem readText_of_writes (h : type.Writes t v) (hs : trim s.toList = t) :
    type.readText field s = .ok v := by
  have hstrip : strip s = String.ofList t := by rw [strip, hs]
  cases h with
  | truth b h => exact readText_boolean (by rw [hs, truthOf?_of_lower h]) field
  | whole n h => exact readText_of_reader? rfl (by rw [hs, Integer.read?_intText h]; rfl)
  | number negative h => exact readText_of_reader? rfl (by rw [hs, Decimal.read?_text h]; rfl)
  | day d => exact readText_of_reader? rfl (by rw [hs, dateOf?_text]; rfl)
  | moment m h => exact readText_of_reader? rfl (by rw [hs, momentOf?_of_readable h]; rfl)
  | identifier u => exact readText_of_reader? rfl (by rw [hs, Uuid.read?_text]; rfl)
  | name enumeration hm h =>
    apply readText_member
    rw [hstrip, String.ofList_toList, memberOf?_name h hm]
  | value enumeration hm h =>
    apply readText_member
    rw [hstrip, String.ofList_toList, memberOf?_value h hm]
  | dayOf m => exact readText_of_reader? rfl (by rw [hs, dateOf?_momentText]; rfl)
  | midnightOf d => exact readText_of_reader? rfl (by rw [hs, momentOf?_dateText]; rfl)
  | letter h => exact readText_of_reader? rfl (by rw [hs, momentOf?_letter h]; rfl)
  | atZero h => exact readText_of_reader? rfl (by rw [hs, momentOf?_atZero h]; rfl)

theorem readText_of_spells (h : type.Spells s v) (field : String) :
    type.readText field s = .ok v := by
  obtain ⟨hbefore, hafter, h⟩ := h
  apply readText_of_writes h
  rw [String.toList_ofList]
  exact trim_around hbefore hafter (trimmed_of_writes h)

theorem readOperand_one_eq_ok (type : ColumnType) (field : String) (v w : Scalar) :
    type.readOperand field (.one v) = .ok (.one w) ↔ type.readScalar field v = .ok w := by
  rw [readOperand, map_eq_ok]
  simp

theorem readOperand_many_eq_ok {vs : List Scalar} {o : Operand} :
    type.readOperand field (.many vs) = .ok o ↔
      ∃ ws, o = .many ws ∧ List.Forall₂ (fun v w => type.readScalar field v = .ok w) vs ws := by
  rw [readOperand, map_eq_ok]
  constructor
  · rintro ⟨ws, hws, rfl⟩
    exact ⟨ws, rfl, forall₂_of_mapM hws⟩
  · rintro ⟨ws, rfl, hws⟩
    refine ⟨ws, mapM_eq_ok.mpr ?_, rfl⟩
    induction hws with
    | nil => rfl
    | cons hread _ ih => rw [List.map_cons, List.map_cons, hread, ih]

/-- Reading undoes writing, and reads several texts one by one. -/
structure ReadsBack (type : ColumnType) (field : String) : Prop where
  one : ∀ s v, type.Spells s v → type.readOperand field (.one (.text s)) = .ok (.one v)
  many : ∀ ss vs, List.Forall₂ type.Spells ss vs →
    type.readOperand field (.many (ss.map .text)) = .ok (.many vs)
  each : ∀ vs o, type.readOperand field (.many vs) = .ok o ↔ ∃ ws, o = .many ws ∧
    List.Forall₂ (fun v w => type.readOperand field (.one v) = .ok (.one w)) vs ws

theorem readsBack (type : ColumnType) (field : String) : type.ReadsBack field where
  one s v h := by
    rw [readOperand_one_eq_ok]
    exact readText_of_spells h field
  many ss vs h := by
    apply readOperand_many_eq_ok.mpr
    refine ⟨vs, rfl, List.forall₂_map_left_iff.mpr ?_⟩
    exact h.imp fun _ _ hspells => readText_of_spells hspells field
  each vs o := by
    simp only [readOperand_one_eq_ok]
    exact readOperand_many_eq_ok

def latestMoment : DateTime :=
  ⟨⟨9999, 12, 31, by decide⟩, ⟨23, 59, 59, 999999, by decide⟩, some ⟨-86399999999, by decide⟩⟩

theorem readsBack_latestMoment :
    ColumnType.datetime.Spells " 9999-12-31T23:59:59.999999-23:59:59.999999\t"
        (.datetime latestMoment) ∧
      ColumnType.datetime.readOperand "at"
          (.many [.text " 9999-12-31T23:59:59.999999-23:59:59.999999\t", .text "0001-01-01"]) =
        .ok (.many [.datetime latestMoment, .datetime (.midnight ⟨1, 1, 1, by decide⟩)]) := by
  have hlatest : ColumnType.datetime.Spells " 9999-12-31T23:59:59.999999-23:59:59.999999\t"
      (.datetime latestMoment) := by
    have htext : " 9999-12-31T23:59:59.999999-23:59:59.999999\t" =
        String.ofList ([' '] ++ latestMoment.text ++ ['\t']) := by decide +kernel
    rw [htext]
    refine .around (List.forall_mem_singleton.mpr rfl) (List.forall_mem_singleton.mpr rfl)
      (.moment latestMoment ?_)
    rintro o ho
    cases ho
    exact .inr (by decide)
  have hfirst : ColumnType.datetime.Spells "0001-01-01"
      (.datetime (.midnight ⟨1, 1, 1, by decide⟩)) := by
    have htext : "0001-01-01" =
        String.ofList ([] ++ (Date.mk 1 1 1 (by decide)).text ++ []) := by decide +kernel
    rw [htext]
    exact .around (List.forall_mem_nil _) (List.forall_mem_nil _) (.midnightOf _)
  exact ⟨hlatest, (readsBack .datetime "at").many [_, _] [_, _] (.cons hlatest (.cons hfirst .nil))⟩

def aheadMoment : DateTime :=
  ⟨⟨2024, 3, 1, by decide⟩, ⟨10, 30, 45, 0, by decide⟩, some ⟨500000, by decide⟩⟩

theorem aheadMoment_spacedName_misread :
    aheadMoment.text = "2024-03-01T10:30:45+00:00:00.500000".toList ∧
      ColumnType.datetime.readOperand "at" (.one (.text "2024-03-01T10:30:45+00:00:00.500000")) =
        .ok (.one (.datetime { aheadMoment with offset := some Offset.zero })) ∧
      { aheadMoment with offset := some Offset.zero } ≠ aheadMoment ∧
      Unambiguous [(" A ", "a")] ∧
      (ColumnType.enumeration "Grade" [(" A ", "a")]).readOperand "grade" (.one (.text " A ")) =
        .error (.badValue "grade" "Grade" "A") := by
  refine ⟨by decide +kernel, by decide +kernel, by decide, ?_, by decide +kernel⟩
  intro m hm
  obtain rfl := List.mem_singleton.mp hm
  refine ⟨trimmed_of_not_blank (List.forall_mem_singleton.mpr rfl), fun m' hm' hne => ?_⟩
  exact absurd (List.mem_singleton.mp hm') hne

end Listing.ColumnType
