import Mathlib
import Listing.Proofs.Membership
import Listing.Proofs.Partition

/-! Moments and the instants that they denote.
What a calendar and a clock show, less the offset from universal time, is an instant, and one instant
has as many readings as there are offsets. A filter on a column of moments goes by the reading of its
text: the offset is left out when the moment is bound. Two texts for one instant therefore keep the
same rows of every table exactly if they have the same offset. -/
namespace Listing

namespace Calendar

def yearStart (year : Nat) : Nat :=
  let y := year - 1
  y * 365 + y / 4 - y / 100 + y / 400

def monthStart (year month : Nat) : Nat := ((monthLengths year).take (month - 1)).sum

/-- Days up to a date, the first of January of the year 1 being the first of them. -/
def Date.number (d : Date) : Nat := yearStart d.year + monthStart d.year d.month + d.day

def Time.microseconds (t : Time) : Nat :=
  ((t.hour * 60 + t.minute) * 60 + t.second) * 1000000 + t.microsecond

def DateTime.reading (m : DateTime) : Int := (m.date.number * dayLength + m.time.microseconds : Nat)

/-- The instant of a moment with an offset, as its reading in universal time. -/
def DateTime.instant? (m : DateTime) : Option Int :=
  m.offset.map fun o => m.reading - o.microseconds

theorem isLeap_iff {y : Nat} : isLeap y = true ↔ 4 ∣ y ∧ (¬ 100 ∣ y ∨ 400 ∣ y) := by
  simp [isLeap, Nat.dvd_iff_mod_eq_zero]

theorem yearStart_succ {y : Nat} (hy : 1 ≤ y) : yearStart (y + 1) = yearStart y + yearLength y := by
  obtain ⟨n, rfl⟩ := Nat.exists_eq_add_of_le' hy
  have hcentury : n / 100 ≤ n := Nat.div_le_self n 100
  have hfour : 100 ∣ n + 1 → 4 ∣ n + 1 := Nat.dvd_trans (by decide)
  have hhundred : 400 ∣ n + 1 → 100 ∣ n + 1 := Nat.dvd_trans (by decide)
  simp only [yearStart, yearLength, isLeap_iff, Nat.add_sub_cancel, Nat.succ_div]
  generalize n / 4 = a, n / 100 = b, n / 400 = c at hcentury ⊢
  by_cases h4 : 4 ∣ n + 1 <;> by_cases h100 : 100 ∣ n + 1 <;> by_cases h400 : 400 ∣ n + 1 <;>
    simp_all <;> omega

theorem yearStart_mono : Monotone yearStart := by
  refine monotone_nat_of_le_succ fun y => ?_
  rcases Nat.eq_zero_or_pos y with rfl | hy
  · exact Nat.le_refl _
  · rw [yearStart_succ hy]
    exact Nat.le_add_right _ _

theorem yearStart_add_yearLength {y y' : Nat} (hy : 1 ≤ y) (h : y < y') :
    yearStart y + yearLength y ≤ yearStart y' := by
  rw [← yearStart_succ hy]
  exact yearStart_mono h

theorem monthStart_succ {y m : Nat} (hm : 1 ≤ m) :
    monthStart y (m + 1) = monthStart y m + monthLength y m := by
  obtain ⟨n, rfl⟩ := Nat.exists_eq_add_of_le' hm
  simp only [monthStart, monthLength, Nat.add_sub_cancel]
  cases hn : (monthLengths y)[n]? with
  | none =>
    have hlength := List.getElem?_eq_none_iff.mp hn
    rw [List.take_of_length_le (by omega), List.take_of_length_le hlength]
    rfl
  | some k =>
    rw [List.take_add_one, hn, List.sum_append]
    rfl

theorem monthStart_add_monthLength {y m m' : Nat} (hm : 1 ≤ m) (h : m < m') :
    monthStart y m + monthLength y m ≤ monthStart y m' := by
  have hmono : Monotone fun i => ((monthLengths y).take i).sum := List.monotone_sum_take _
  rw [← monthStart_succ hm]
  exact hmono (Nat.sub_le_sub_right h 1)

theorem monthStart_thirteen (y : Nat) : monthStart y 13 = yearLength y := by
  simp only [monthStart, monthLengths, yearLength]
  split <;> rfl

theorem Date.number_lt_of_before {a b : Date} (h : a.Before b) : a.number < b.number := by
  obtain ⟨⟨hya, -⟩, ⟨hma, hma'⟩, hda, hda'⟩ := a.valid
  obtain ⟨-, ⟨hmb, hmb'⟩, hdb, hdb'⟩ := b.valid
  rcases h with hyear | ⟨hyear, hmonth | ⟨hmonth, hday⟩⟩
  · have hstart := yearStart_add_yearLength hya hyear
    have hend := monthStart_add_monthLength (y := a.year) hma (Nat.lt_succ_of_le hma')
    rw [monthStart_thirteen] at hend
    simp only [number]
    omega
  · have hend := monthStart_add_monthLength (y := a.year) hma hmonth
    simp only [number, hyear] at hend hda' ⊢
    omega
  · simp only [number, hyear, hmonth]
    omega

theorem Date.number_injective : Function.Injective Date.number :=
  Text.injective_of_lt (fun _ _ => number_lt_of_before) before_trichotomy

theorem Time.microseconds_lt (t : Time) : t.microseconds < dayLength := by
  obtain ⟨hh, hm, hs, hu⟩ := t.valid
  simp only [microseconds, dayLength]
  omega

theorem Time.microseconds_lt_of_before {a b : Time} (h : a.Before b) :
    a.microseconds < b.microseconds := by
  obtain ⟨-, hma, hsa, hua⟩ := a.valid
  obtain ⟨-, hmb, hsb, hub⟩ := b.valid
  simp only [Before] at h
  simp only [microseconds]
  omega

theorem Time.microseconds_injective : Function.Injective Time.microseconds :=
  Text.injective_of_lt (fun _ _ => microseconds_lt_of_before) before_trichotomy

namespace DateTime
variable {a b : DateTime}

theorem reading_inj : a.reading = b.reading ↔ a.date = b.date ∧ a.time = b.time := by
  have ha := a.time.microseconds_lt
  have hb := b.time.microseconds_lt
  rw [← Date.number_injective.eq_iff, ← Time.microseconds_injective.eq_iff]
  simp only [reading, dayLength, Nat.cast_inj] at ha hb ⊢
  omega

theorem reading_eq_iff_offset_eq {i : Int} (ha : a.instant? = some i) (hb : b.instant? = some i) :
    a.date = b.date ∧ a.time = b.time ↔ a.offset = b.offset := by
  obtain ⟨o, ho, hi⟩ := Option.map_eq_some_iff.mp ha
  obtain ⟨o', ho', hi'⟩ := Option.map_eq_some_iff.mp hb
  rw [← reading_inj, ho, ho', Option.some.injEq]
  constructor
  · intro h
    rcases o with ⟨n, hn⟩
    rcases o' with ⟨n', hn'⟩
    simp only [Offset.mk.injEq] at hi hi' ⊢
    omega
  · rintro rfl
    omega

theorem before_irrefl (a : DateTime) : ¬ a.Before a := by
  rw [← Store.momentText_lt_iff]
  exact lt_irrefl _

theorem not_shown_eq_of_before (h : a.Before b) : ¬ (a.date = b.date ∧ a.time = b.time) := by
  rw [← Store.momentText_inj]
  exact (Store.momentText_lt_iff.mpr h).ne

theorem before_or_before (h : ¬ (a.date = b.date ∧ a.time = b.time)) : a.Before b ∨ b.Before a := by
  rw [← Store.momentText_inj] at h
  rw [← Store.momentText_lt_iff, ← Store.momentText_lt_iff]
  exact lt_or_gt_of_ne h

def shown (m : DateTime) : DateTime := ⟨m.date, m.time, none⟩

@[simp] theorem date_shown (a : DateTime) : a.shown.date = a.date := rfl

@[simp] theorem time_shown (a : DateTime) : a.shown.time = a.time := rfl

@[simp] theorem shown_before_iff : a.shown.Before b ↔ a.Before b := Iff.rfl

@[simp] theorem before_shown_iff : a.Before b.shown ↔ a.Before b := Iff.rfl

end DateTime
end Calendar

namespace Operator
open Calendar

def spelled : List Operator := oneOf :: comparisons

def Tells (u m : DateTime) : Operator → Prop
  | eq | oneOf => u.date = m.date ∧ u.time = m.time
  | ne => ¬ (u.date = m.date ∧ u.time = m.time)
  | gt => m.Before u
  | gte => ¬ u.Before m
  | lt => u.Before m
  | lte => ¬ m.Before u
  | _ => False

variable {o : Operator} {u m m' : DateTime}

theorem asksFor_iff_tells (ho : o ∈ comparisons) (u m : DateTime) :
    o.asksFor (some (compare (Store.momentText u) (Store.momentText m))) = true ↔ o.Tells u m := by
  have hlt : compare (Store.momentText u) (Store.momentText m) = .lt ↔ u.Before m :=
    compare_lt_iff_lt.trans Store.momentText_lt_iff
  have heq : compare (Store.momentText u) (Store.momentText m) = .eq ↔
      u.date = m.date ∧ u.time = m.time := compare_eq_iff_eq.trans Store.momentText_inj
  have hgt : compare (Store.momentText u) (Store.momentText m) = .gt ↔ m.Before u :=
    compare_gt_iff_gt.trans Store.momentText_lt_iff
  fin_cases ho <;> simp only [Tells, ← hlt, ← heq, ← hgt] <;>
    simp [asksFor, comparison?, Store.Comparison.test]

theorem tells_apart_of_before (ho : o ∈ spelled) (h : m.Before m') :
    ¬ (o.Tells m.shown m ↔ o.Tells m.shown m') ∨ ¬ (o.Tells m'.shown m ↔ o.Tells m'.shown m') := by
  have hne := DateTime.not_shown_eq_of_before h
  have hm := m.before_irrefl
  have hm' := m'.before_irrefl
  fin_cases ho <;> simp [Tells, h, hne, hm, hm']

theorem exists_tells_apart (ho : o ∈ spelled) (h : ¬ (m.date = m'.date ∧ m.time = m'.time)) :
    ∃ u : DateTime, u.offset = none ∧ ¬ (o.Tells u m ↔ o.Tells u m') := by
  rcases DateTime.before_or_before h with hbefore | hbefore
  · rcases tells_apart_of_before ho hbefore with hat | hat
    · exact ⟨m.shown, rfl, hat⟩
    · exact ⟨m'.shown, rfl, hat⟩
  · rcases tells_apart_of_before ho hbefore with hat | hat
    · exact ⟨m'.shown, rfl, fun hiff => hat hiff.symm⟩
    · exact ⟨m.shown, rfl, fun hiff => hat hiff.symm⟩

end Operator

def Filter.spelling (field t : String) (o : Operator) : Filter :=
  ⟨field, o, if o.isList then .members [t] else .single t⟩

namespace Store.Schema
open Calendar
variable {h : Schema} {column : Column} {field t t' : String} {o : Operator} {m m' u : DateTime}
  {row : Row}

theorem keeps_iff_meets {f : Filter} {c : Condition} (hc : Condition.ofFilter f = .ok c) :
    h.Keeps f row ↔ h.meets row c = true := by
  rw [meets_iff, Keeps, clauseOf, hc]
  rfl

theorem keeps_spelling_oneOf (hrules : h.rules = .standard) (hcolumn : h.column field = .ok column)
    (ht : t ≠ "") :
    h.Keeps (.spelling field t .oneOf) row ↔ h.Keeps (.spelling field t .eq) row := by
  have hmembers : Condition.membersOf (.spelling field t .oneOf) = .ok [t] :=
    Condition.membersOf_members (List.cons_ne_nil t []) (List.forall_mem_singleton.mpr ht)
  have hamong : Condition.ofFilter (.spelling field t .oneOf) = .ok (.among field [t]) :=
    map_eq_ok.mpr ⟨[t], hmembers, rfl⟩
  have hequals : Condition.ofFilter (.spelling field t .eq) = .ok (.equals field t) := rfl
  rw [keeps_iff_meets hamong, keeps_iff_meets hequals, meets_among hrules hcolumn]
  simp only [List.mem_singleton, forall_eq, exists_eq_left, and_iff_right_iff_imp]
  intro hmeets
  obtain ⟨k, hk, -⟩ := meets_iff.mp hmeets
  exact ⟨k, hk⟩

theorem ne_empty_of_readText (htype : column.type = .datetime)
    (hread : column.type.readText field t = .ok (.datetime m)) : t ≠ "" := by
  rintro rfl
  rw [htype] at hread
  cases hread

theorem keeps_spelling_comparison (hrules : h.rules = .standard)
    (hcolumn : h.column field = .ok column) (htype : column.type = .datetime)
    (hread : column.type.readText field t = .ok (.datetime m)) (ho : o ∈ Operator.comparisons) :
    h.Keeps (.spelling field t o) row ↔
      o.asksFor ((row column.name).compare? (.text (momentText m))) = true := by
  have hasking : Filter.spelling field t o = .asking field t o := by fin_cases ho <;> rfl
  rw [hasking]
  exact keeps_comparison_iff hrules hcolumn (by rw [htype]; decide) hread ho

theorem keeps_iff_tells (hrules : h.rules = .standard) (hcolumn : h.column field = .ok column)
    (htype : column.type = .datetime) (hread : column.type.readText field t = .ok (.datetime m))
    (ho : o ∈ Operator.spelled) (hcell : row column.name = .ofScalar (.datetime u)) :
    h.Keeps (.spelling field t o) row ↔ o.Tells u m := by
  have hcomparison (q : Operator) (hq : q ∈ Operator.comparisons) :
      h.Keeps (.spelling field t q) row ↔ q.Tells u m := by
    rw [keeps_spelling_comparison hrules hcolumn htype hread hq, hcell, Cell.ofScalar,
      Cell.compare?_text]
    exact Operator.asksFor_iff_tells hq u m
  rcases List.mem_cons.mp ho with rfl | ho
  · rw [keeps_spelling_oneOf hrules hcolumn (ne_empty_of_readText htype hread)]
    exact hcomparison .eq (by decide)
  · exact hcomparison o ho

theorem keeps_congr (hrules : h.rules = .standard) (hcolumn : h.column field = .ok column)
    (htype : column.type = .datetime) (hread : column.type.readText field t = .ok (.datetime m))
    (hread' : column.type.readText field t' = .ok (.datetime m'))
    (hshown : m.date = m'.date ∧ m.time = m'.time) (ho : o ∈ Operator.spelled) :
    h.Keeps (.spelling field t o) row ↔ h.Keeps (.spelling field t' o) row := by
  have hcomparison (q : Operator) (hq : q ∈ Operator.comparisons) :
      h.Keeps (.spelling field t q) row ↔ h.Keeps (.spelling field t' q) row := by
    rw [keeps_spelling_comparison hrules hcolumn htype hread hq,
      keeps_spelling_comparison hrules hcolumn htype hread' hq, momentText_inj.mpr hshown]
  rcases List.mem_cons.mp ho with rfl | ho
  · rw [keeps_spelling_oneOf hrules hcolumn (ne_empty_of_readText htype hread),
      keeps_spelling_oneOf hrules hcolumn (ne_empty_of_readText htype hread')]
    exact hcomparison .eq (by decide)
  · exact hcomparison o ho

/-- What two texts for one instant select from tables of moments without an offset. -/
structure GoesByReading (h : Schema) (column : Column) (field t t' : String)
    (m m' : DateTime) : Prop where
  told : ∀ o ∈ Operator.spelled, ∀ row u, row column.name = .ofScalar (.datetime u) →
    (h.Keeps (.spelling field t o) row ↔ o.Tells u m)
  same : m.offset = m'.offset → ∀ o ∈ Operator.spelled, ∀ row,
    (h.Keeps (.spelling field t o) row ↔ h.Keeps (.spelling field t' o) row)
  apart : m.offset ≠ m'.offset → ∀ o ∈ Operator.spelled, ∃ u : DateTime, u.offset = none ∧
    ∀ row, row column.name = .ofScalar (.datetime u) →
      ¬ (h.Keeps (.spelling field t o) row ↔ h.Keeps (.spelling field t' o) row)

open Sample

theorem spellings_goByReading (h : Schema) (column : Column) (field t t' : String)
    (m m' : DateTime) (i : Int) (hrules : h.rules = .standard)
    (hcolumn : h.column field = .ok column) (htype : column.type = .datetime)
    (hread : column.type.readText field t = .ok (.datetime m))
    (hread' : column.type.readText field t' = .ok (.datetime m'))
    (hinstant : m.instant? = some i) (hinstant' : m'.instant? = some i) :
    h.GoesByReading column field t t' m m' where
  told o ho row u hcell := keeps_iff_tells hrules hcolumn htype hread ho hcell
  same hoffset o ho row := by
    have hshown := (DateTime.reading_eq_iff_offset_eq hinstant hinstant').mpr hoffset
    exact keeps_congr hrules hcolumn htype hread hread' hshown ho
  apart hoffset o ho := by
    have hshown := mt (DateTime.reading_eq_iff_offset_eq hinstant hinstant').mp hoffset
    obtain ⟨u, hu, hapart⟩ := Operator.exists_tells_apart ho hshown
    refine ⟨u, hu, fun row hcell => ?_⟩
    rwa [keeps_iff_tells hrules hcolumn htype hread ho hcell,
      keeps_iff_tells hrules hcolumn htype hread' ho hcell]

def universalText : String := "2024-01-06T12:34:56.789Z"

def nightText : String := "2024-01-07T00:34:56.789+12:00"

def universalMoment : DateTime :=
  ⟨⟨2024, 1, 6, by decide⟩, ⟨12, 34, 56, 789000, by decide⟩, some .zero⟩

def nightMoment : DateTime :=
  ⟨⟨2024, 1, 7, by decide⟩, ⟨0, 34, 56, 789000, by decide⟩, some ⟨43200000000, by decide⟩⟩

theorem spellings_goByReading_night :
    usersSchema.rules = .standard ∧
      usersSchema.column "createdAt" = .ok ⟨"users", "created_at", .datetime⟩ ∧
      ColumnType.datetime.readText "createdAt" universalText = .ok (.datetime universalMoment) ∧
      ColumnType.datetime.readText "createdAt" nightText = .ok (.datetime nightMoment) ∧
      universalMoment.instant? = some 63840227696789000 ∧
      nightMoment.instant? = some 63840227696789000 ∧
      usersSchema.Keeps (.spelling "createdAt" universalText .oneOf) (userAt 5).row ∧
      ∃ u : DateTime, u.offset = none ∧ ∀ row : Row,
        row "created_at" = .ofScalar (.datetime u) →
          ¬ (usersSchema.Keeps (.spelling "createdAt" universalText .gt) row ↔
            usersSchema.Keeps (.spelling "createdAt" nightText .gt) row) := by
  have hcolumn : usersSchema.column "createdAt" = .ok ⟨"users", "created_at", .datetime⟩ := rfl
  have hread : ColumnType.datetime.readText "createdAt" universalText =
      .ok (.datetime universalMoment) := by decide +kernel
  have hread' : ColumnType.datetime.readText "createdAt" nightText =
      .ok (.datetime nightMoment) := by decide +kernel
  have hinstant : universalMoment.instant? = some 63840227696789000 := by decide
  have hinstant' : nightMoment.instant? = some 63840227696789000 := by decide
  have hreading := spellings_goByReading usersSchema _ "createdAt" universalText nightText
    universalMoment nightMoment _ rfl hcolumn rfl hread hread' hinstant hinstant'
  refine ⟨rfl, hcolumn, hread, hread', hinstant, hinstant', ?_,
    hreading.apart (by decide) .gt (by decide)⟩
  exact (hreading.told .oneOf (by decide) (userAt 5).row universalMoment.shown
    (by decide +kernel)).mpr ⟨rfl, rfl⟩

def universalString : String := "filter[createdAt][eq]=2024-01-06T12:34:56.789Z"
def nightString : String := "filter[createdAt][eq]=2024-01-07T00:34:56.789%2B12:00"

def momentPlan (t : String) : Plan where
  query := ⟨⟨1, 20⟩, {}, [⟨"createdAt", .eq, .single t⟩]⟩
  conditions := [⟨"createdAt", .eq, .one (.text t)⟩]
  order := ⟨"createdAt", .desc⟩
  limit := some 20
  offset := 0

/-- One spelling of an instant finds the user of that instant, another one finds none. -/
theorem spellings_select_apart :
    usersPolicy.plan (.ofQueryString universalString) = .ok (momentPlan universalText) ∧
      usersPolicy.plan (.ofQueryString nightString) = .ok (momentPlan nightText) ∧
      ColumnType.datetime.readText "createdAt" universalText = .ok (.datetime universalMoment) ∧
      ColumnType.datetime.readText "createdAt" nightText = .ok (.datetime nightMoment) ∧
      universalMoment.instant? = nightMoment.instant? ∧
      (allUsers.run (.ofTable userRows) (momentPlan universalText)).map (·.page.block.total) =
        .ok 1 ∧
      (allUsers.run (.ofTable userRows) (momentPlan nightText)).map (·.page.block.total) =
        .ok 0 := by
  refine ⟨by decide +kernel, by decide +kernel, by decide +kernel, by decide +kernel, by decide,
    by decide +kernel, by decide +kernel⟩

end Store.Schema
end Listing
