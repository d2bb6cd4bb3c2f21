import Mathlib
import Listing.Endpoint
import Listing.Proofs.Admission

/-! Which requests are turned down, and for which of their faults.
`Asked` are the filters that a request asks for, before their values are read. What becomes of a
source is decided by them alone: `Allowlist.Refuses` says which rejection they meet with, and without
one there is a plan. Of several faults the one counts that an earlier stage finds, and within a stage
the one of the first filter; only unknown fields are reported together. -/
namespace Listing
open Listing.Parameter Listing.Text

namespace Condition
variable {f : Filter} {r : Rejection}

theorem nullCheck_eq_error {relation : Relation} :
    nullCheck f relation = .error r ↔ affirmed f = false ∧ r = .notAffirmed f.field f.operator := by
  rw [nullCheck]
  cases affirmed f <;> simp [eq_comm (b := r)]

theorem exists_scalarOf (hv : f.value.IsCanonical f.operator) (ho : f.operator.isList = false) :
    ∃ s, scalarOf f = .ok s := by
  cases h : f.value with
  | single s => exact ⟨s, by rw [scalarOf, h]⟩
  | members ts =>
    rw [h, FilterValue.IsCanonical, ho] at hv
    cases hv.1

theorem exists_membersOf (hv : f.value.IsCanonical f.operator) (ho : f.operator.isList = true) :
    ∃ ts, membersOf f = .ok ts := by
  rcases f with ⟨field, o, v⟩
  cases v with
  | single s =>
    rw [FilterValue.IsCanonical, ho] at hv
    cases hv
  | members ts =>
    obtain ⟨-, hne, hitems⟩ := hv
    exact ⟨ts, membersOf_members hne fun t ht => (hitems t ht).ne_empty⟩

theorem ofFilter_eq_error (ho : f.operator ∈ Operator.all) (hv : f.value.IsCanonical f.operator) :
    ofFilter f = .error r ↔
      (f.operator.isNullCheck = true ∧ affirmed f = false) ∧
        r = .notAffirmed f.field f.operator := by
  have hscalar := exists_scalarOf hv
  have hmembers := exists_membersOf hv
  rw [ofFilter]
  cases hop : f.operator with
  | eq | ne | gt | gte | lt | lte =>
    obtain ⟨s, hs⟩ := hscalar (by rw [hop]; rfl)
    simp [compared, hs, Except.map, Operator.isNullCheck]
  | like | contains | startsWith | endsWith =>
    obtain ⟨s, hs⟩ := hscalar (by rw [hop]; rfl)
    simp [pattern, hs, Except.map, Operator.isNullCheck]
  | oneOf =>
    obtain ⟨ts, hts⟩ := hmembers (by rw [hop]; rfl)
    simp [hts, Except.map, Operator.isNullCheck]
  | isNull | notNull =>
    simp only [nullCheck_eq_error, hop, Operator.isNullCheck, true_and]
  | custom name =>
    rw [hop] at ho
    simp [Operator.all] at ho

end Condition

/-- A filter as a request asks for it. -/
structure Asked where
  field : String
  operator : Operator
  raw : Value

namespace Asked

def text (a : Asked) : String := FilterValue.rawText a.operator a.raw

def isEmptyList (a : Asked) : Bool :=
  a.operator.isList && (splitOn ',' a.text.toList).all fun piece => piece.all isBlank

def isUnaffirmed (a : Asked) : Bool := a.operator.isNullCheck && strip a.text != "true"

def read (a : Asked) : Except Rejection Filter :=
  (FilterValue.ofRaw a.field a.operator a.raw).map (⟨a.field, a.operator, ·⟩)

/-- What the text is read as; a list that is empty is not read at all. -/
def value (a : Asked) : FilterValue :=
  if a.operator.isList then .members (FilterValue.itemsOf a.text) else .single a.text

def filter (a : Asked) : Filter := ⟨a.field, a.operator, a.value⟩

theorem isEmptyList_iff {a : Asked} :
    a.isEmptyList = true ↔ a.operator.isList = true ∧ FilterValue.itemsOf a.text = [] := by
  simp [isEmptyList, FilterValue.itemsOf_eq_nil_iff]

theorem read_of_isEmptyList {a : Asked} (h : a.isEmptyList = true) :
    a.read = .error (.noMember a.field) := by
  obtain ⟨hlist, hitems⟩ := isEmptyList_iff.mp h
  rw [text] at hitems
  rw [read, FilterValue.ofRaw, if_pos hlist, hitems]
  rfl

theorem read_eq_filter {a : Asked} (h : a.isEmptyList = false) : a.read = .ok a.filter := by
  rw [read, FilterValue.ofRaw, filter, value]
  cases hlist : a.operator.isList with
  | false => rfl
  | true =>
    have hitems : FilterValue.itemsOf a.text ≠ [] := by
      intro hitems
      rw [isEmptyList_iff.mpr ⟨hlist, hitems⟩] at h
      cases h
    rw [text] at hitems ⊢
    cases hi : FilterValue.itemsOf (FilterValue.rawText a.operator a.raw) with
    | nil => exact absurd hi hitems
    | cons t ts => rfl

theorem isOk_read (a : Asked) : a.read.isOk = !a.isEmptyList := by
  cases h : a.isEmptyList with
  | true =>
    rw [read_of_isEmptyList h]
    rfl
  | false =>
    rw [read_eq_filter h]
    rfl

theorem isCanonical_value {a : Asked} (h : a.isEmptyList = false) :
    a.value.IsCanonical a.operator := by
  obtain ⟨v, hv, hf⟩ := map_eq_ok.mp (read_eq_filter h)
  have hvalue : v = a.value := congrArg Filter.value hf
  exact hvalue ▸ FilterValue.isCanonical_of_ofRaw hv

theorem affirmed_filter {a : Asked} (h : a.operator.isNullCheck = true) :
    Condition.affirmed a.filter = (strip a.text == "true") := by
  have hlist : a.operator.isList = false := by
    cases ho : a.operator <;> rw [ho] at h <;> first | rfl | cases h
  rw [Bool.eq_iff_iff, Condition.affirmed, filter, value, hlist, beq_iff_eq, ← String.toList_inj,
    toList_strip]
  exact beq_iff_eq

variable {as : List Asked} {r : Rejection}

theorem mapM_read_eq_error :
    as.mapM read = .error r ↔ ∃ a, as.find? isEmptyList = some a ∧ r = .noMember a.field := by
  rw [mapM_eq_error]
  simp only [isOk_read, Bool.not_not]
  refine exists_congr fun a => and_congr_right fun hfind => ?_
  rw [read_of_isEmptyList (List.find?_some hfind), Except.error.injEq, eq_comm]

theorem mapM_read_eq_ok {fs : List Filter} :
    as.mapM read = .ok fs ↔ (∀ a ∈ as, a.isEmptyList = false) ∧ fs = as.map filter := by
  have hok (h : ∀ a ∈ as, a.isEmptyList = false) : as.mapM read = .ok (as.map filter) := by
    rw [mapM_eq_ok, List.map_map]
    exact List.map_congr_left fun a ha => read_eq_filter (h a ha)
  constructor
  · intro h
    have hread : ∀ a ∈ as, a.isEmptyList = false := by
      intro a ha
      obtain ⟨f, -, hf⟩ := exists_mem_of_mapM h ha
      cases hempty : a.isEmptyList with
      | false => rfl
      | true =>
        rw [read_of_isEmptyList hempty] at hf
        cases hf
    refine ⟨hread, ?_⟩
    rw [hok hread] at h
    exact (Except.ok.inj h).symm
  · intro h
    obtain ⟨hread, rfl⟩ := h
    exact hok hread

theorem ofFilter_filter_eq_error {a : Asked} (ho : a.operator ∈ Operator.all)
    (hread : a.isEmptyList = false) :
    Condition.ofFilter a.filter = .error r ↔
      a.isUnaffirmed = true ∧ r = .notAffirmed a.field a.operator := by
  rw [Condition.ofFilter_eq_error (f := a.filter) ho (isCanonical_value hread)]
  refine and_congr_left fun _ => ?_
  rw [isUnaffirmed, Bool.and_eq_true]
  refine and_congr_right fun hcheck => ?_
  rw [affirmed_filter hcheck, bne, Bool.not_eq_true']

theorem isOk_ofFilter_filter {a : Asked} (ho : a.operator ∈ Operator.all)
    (hread : a.isEmptyList = false) :
    (Condition.ofFilter a.filter).isOk = !a.isUnaffirmed := by
  cases h : Condition.ofFilter a.filter with
  | error r =>
    rw [((ofFilter_filter_eq_error ho hread).mp h).1]
    rfl
  | ok c =>
    cases hu : a.isUnaffirmed with
    | false => rfl
    | true =>
      rw [(ofFilter_filter_eq_error ho hread).mpr ⟨hu, rfl⟩] at h
      cases h

theorem ofFilters_eq_error (ho : ∀ a ∈ as, a.operator ∈ Operator.all)
    (hread : ∀ a ∈ as, a.isEmptyList = false) :
    Condition.ofFilters (as.map filter) = .error r ↔
      ∃ a, as.find? isUnaffirmed = some a ∧ r = .notAffirmed a.field a.operator := by
  have hfind : (as.map filter).find? (fun f => !(Condition.ofFilter f).isOk) =
      (as.find? isUnaffirmed).map filter := by
    rw [List.find?_map]
    congr 1
    refine List.find?_congr fun a ha => ?_
    rw [Function.comp, isOk_ofFilter_filter (ho a ha) (hread a ha), Bool.not_not]
  rw [Condition.ofFilters, mapM_eq_error, hfind]
  simp only [Option.map_eq_some_iff]
  constructor
  · intro h
    obtain ⟨-, ⟨a, ha, rfl⟩, hr⟩ := h
    have hmem := List.mem_of_find?_eq_some ha
    exact ⟨a, ha, ((ofFilter_filter_eq_error (ho a hmem) (hread a hmem)).mp hr).2⟩
  · intro h
    obtain ⟨a, ha, rfl⟩ := h
    have hmem := List.mem_of_find?_eq_some ha
    exact ⟨_, ⟨a, ha, rfl⟩, (ofFilter_filter_eq_error (ho a hmem) (hread a hmem)).mpr
      ⟨List.find?_some ha, rfl⟩⟩

end Asked

namespace Reading

def asked? : Reading → Option Asked
  | ignored _ => none
  | asked field o raw => some ⟨field, o, raw⟩

def Named (r : Reading) : Prop := ∀ a ∈ r.asked?, a.operator ∈ Operator.all

theorem named_ofName (field name : String) (raw : Value) : (ofName field name raw).Named := by
  intro a ha
  rw [ofName] at ha
  split at ha
  case h_1 o ho =>
    cases ha
    exact (Operator.ofName?_eq_some ho).1
  case h_2 => cases ha

theorem named_ignored (e : Event) : (ignored e).Named := fun _ ha => nomatch ha

theorem named_operatorNotes (field : Key) (operators : List (Key × Value)) :
    ∀ r ∈ operatorNotes field operators, r.Named := by
  fun_induction operatorNotes field operators with
  | case1 => exact List.forall_mem_nil _
  | case2 o es r ih => exact List.forall_mem_cons.mpr ⟨named_ignored _, ih⟩
  | case3 e r h ih => exact ih

theorem named_operatorReadings (field : Key) (operators : List (Key × Value)) :
    ∀ r ∈ operatorReadings field operators, r.Named := by
  fun_induction operatorReadings field operators with
  | case1 => exact List.forall_mem_nil _
  | case2 o es r ih => exact ih
  | case3 o v r h ih => exact List.forall_mem_cons.mpr ⟨named_ofName _ _ _, ih⟩

theorem named_ofNested (fields : List (Key × Value)) : ∀ r ∈ ofNested fields, r.Named := by
  intro r hr
  rcases List.mem_append.mp hr with hr | hr
  · obtain ⟨⟨field, v⟩, -, hr⟩ := List.mem_flatMap.mp hr
    cases v with
    | mapping operators => exact named_operatorNotes field operators r hr
    | _ =>
      rw [List.mem_singleton.mp hr]
      exact named_ignored _
  · obtain ⟨⟨field, v⟩, -, hr⟩ := List.mem_flatMap.mp hr
    cases v with
    | mapping operators => exact named_operatorReadings field operators r hr
    | _ => cases hr

theorem named_ofFlat (filterKey key : String) (v : Value) :
    ∀ r ∈ ofFlat filterKey key v, r.Named := by
  intro r hr
  rw [ofFlat] at hr
  split at hr
  case h_1 =>
    rw [List.mem_singleton.mp hr]
    exact named_ofName _ _ _
  case h_2 =>
    split at hr
    case isTrue =>
      rw [List.mem_singleton.mp hr]
      exact named_ignored _
    case isFalse => cases hr

theorem named_ofEntries {filterKey : String} {entries : List Entry} :
    ∀ r ∈ ofEntries filterKey entries, r.Named := by
  intro r hr
  obtain ⟨⟨key, v⟩, -, hr⟩ := List.mem_flatMap.mp hr
  cases v with
  | mapping fields =>
    rw [ofEntry] at hr
    split at hr
    · exact named_ofNested fields r hr
    · exact named_ofFlat _ _ _ r hr
  | _ => exact named_ofFlat _ _ _ r hr

/-- Parameters of other names state no filter: neither a flat one nor nested ones. -/
def mayState (filterKey : String) (e : Entry) : Bool :=
  e.1 == filterKey || (filterKey ++ "[").toList.isPrefixOf e.1.toList

theorem asked?_ofEntry {filterKey : String} {e : Entry} (h : mayState filterKey e = false) :
    (ofEntry filterKey e).filterMap asked? = [] := by
  obtain ⟨key, v⟩ := e
  obtain ⟨hne, hbegins⟩ := Bool.or_eq_false_iff.mp h
  have hparts : Bracket.parts? filterKey key = none := by
    refine Bracket.parts?_eq_none fun hprefix => ?_
    rw [List.isPrefixOf_iff_prefix.mpr hprefix] at hbegins
    cases hbegins
  have hflat : (ofFlat filterKey key v).filterMap asked? = [] := by
    rw [ofFlat, hparts]
    dsimp only
    split <;> rfl
  cases v with
  | mapping fields =>
    rw [ofEntry, if_neg (by simpa using hne)]
    exact hflat
  | _ => exact hflat

theorem asked?_ofEntries (filterKey : String) (entries : List Entry) :
    (ofEntries filterKey entries).filterMap asked? =
      (ofEntries filterKey (entries.filter (mayState filterKey))).filterMap asked? := by
  induction entries with
  | nil => rfl
  | cons e r ih =>
    rw [ofEntries, List.flatMap_cons, List.filterMap_append, ← ofEntries, ih]
    cases h : mayState filterKey e with
    | false => rw [asked?_ofEntry h, List.nil_append, List.filter_cons_of_neg (by simp [h])]
    | true =>
      rw [List.filter_cons_of_pos h, ofEntries, ofEntries, List.flatMap_cons,
        List.filterMap_append]

end Reading

theorem Filter.ofReadings_eq_mapM (rs : List Reading) :
    ofReadings rs = (rs.filterMap Reading.asked?).mapM Asked.read := by
  induction rs with
  | nil => rfl
  | cons r rs ih =>
    cases r with
    | ignored e => exact ih
    | asked field o raw =>
      have hr : Reading.asked? (.asked field o raw) = some ⟨field, o, raw⟩ := rfl
      rw [ofReadings, ih, List.filterMap_cons_some hr, List.mapM_cons, Asked.read]
      cases FilterValue.ofRaw field o raw <;> rfl

namespace Allowlist

def unknown (w : Allowlist) (as : List Asked) : List String :=
  (as.map (·.field)).filter fun f => f ∉ w.filterFields

def refusesOperator (w : Allowlist) (a : Asked) : Bool :=
  (w.restriction? a.field).any fun operators => a.operator ∉ operators

/-- Why filters are turned down: for a list without an item; else for all unknown fields together;
else for an operator that its field does not admit; else for a null check that is not affirmed. -/
inductive Refuses (w : Allowlist) (as : List Asked) : Rejection → Prop
  | noMember {a : Asked} (h : as.find? Asked.isEmptyList = some a) : Refuses w as (.noMember a.field)
  | unknownFields (hread : ∀ a ∈ as, a.isEmptyList = false) (h : w.unknown as ≠ []) :
    Refuses w as (.unknownFields (w.unknown as).eraseDups w.filterFields.eraseDups)
  | operatorRefused {a : Asked} (hread : ∀ a ∈ as, a.isEmptyList = false)
    (hknown : ∀ a ∈ as, a.field ∈ w.filterFields) (h : as.find? w.refusesOperator = some a) :
    Refuses w as (.operatorRefused [a.field] a.operator.name [])
  | notAffirmed {a : Asked} (hread : ∀ a ∈ as, a.isEmptyList = false)
    (hknown : ∀ a ∈ as, a.field ∈ w.filterFields)
    (hadmits : ∀ a ∈ as, w.refusesOperator a = false)
    (h : as.find? Asked.isUnaffirmed = some a) :
    Refuses w as (.notAffirmed a.field a.operator)

structure Accepts (w : Allowlist) (as : List Asked) : Prop where
  read : ∀ a ∈ as, a.isEmptyList = false
  known : ∀ a ∈ as, a.field ∈ w.filterFields
  admitted : ∀ a ∈ as, w.refusesOperator a = false
  affirmed : ∀ a ∈ as, a.isUnaffirmed = false

variable {w : Allowlist} {as : List Asked} {r : Rejection}

theorem rejected_filter (w : Allowlist) (as : List Asked) :
    w.rejected (as.map Asked.filter) = w.unknown as := by
  rw [rejected, unknown, List.map_map]
  refine List.filter_congr fun f _ => ?_
  rw [allowsFilter, decide_not, List.contains_eq_mem]

theorem admits_filter (w : Allowlist) (a : Asked) : w.admits a.filter = !w.refusesOperator a := by
  have hfield : a.filter.field = a.field := rfl
  have hoperator : a.filter.operator = a.operator := rfl
  rw [admits, refusesOperator, hfield, hoperator]
  cases w.restriction? a.field <;> simp

theorem unknown_eq_nil_iff : w.unknown as = [] ↔ ∀ a ∈ as, a.field ∈ w.filterFields := by
  simp [unknown, List.filter_eq_nil_iff]

theorem check_filter_eq_ok :
    w.check (as.map Asked.filter) = .ok () ↔
      (∀ a ∈ as, a.field ∈ w.filterFields) ∧ ∀ a ∈ as, w.refusesOperator a = false := by
  rw [check_eq_ok, List.forall_mem_map, ← forall₂_and]
  refine forall₂_congr fun a _ => and_congr ?_ ?_
  · exact List.contains_iff_mem
  · rw [admits_filter, Bool.not_eq_true']

theorem check_filter_eq_error :
    w.check (as.map Asked.filter) = .error r ↔
      (w.unknown as ≠ [] ∧
        r = .unknownFields (w.unknown as).eraseDups w.filterFields.eraseDups) ∨
      w.unknown as = [] ∧ ∃ a, as.find? w.refusesOperator = some a ∧
        r = .operatorRefused [a.field] a.operator.name [] := by
  have hfind : (as.map Asked.filter).find? (fun f => !w.admits f) =
      (as.find? w.refusesOperator).map Asked.filter := by
    rw [List.find?_map]
    congr 1
    exact List.find?_congr fun a _ => by simp [admits_filter]
  rw [check, rejected_filter, hfind]
  cases hunknown : w.unknown as with
  | nil => cases as.find? w.refusesOperator <;> simp [Asked.filter, eq_comm]
  | cons f fs => simp [eq_comm]

/-- A rejection tells the first stage at which a fault is found. -/
theorem refuses_iff (ho : ∀ a ∈ as, a.operator ∈ Operator.all) :
    w.Refuses as r ↔ as.mapM Asked.read = .error r ∨
      (∀ a ∈ as, a.isEmptyList = false) ∧
        (w.check (as.map Asked.filter) = .error r ∨
          w.check (as.map Asked.filter) = .ok () ∧
            Condition.ofFilters (as.map Asked.filter) = .error r) := by
  constructor
  · intro h
    cases h with
    | noMember h => exact .inl (Asked.mapM_read_eq_error.mpr ⟨_, h, rfl⟩)
    | unknownFields hread h => exact .inr ⟨hread, .inl (check_filter_eq_error.mpr (.inl ⟨h, rfl⟩))⟩
    | operatorRefused hread hknown h =>
      refine .inr ⟨hread, .inl (check_filter_eq_error.mpr (.inr ⟨?_, _, h, rfl⟩))⟩
      exact unknown_eq_nil_iff.mpr hknown
    | notAffirmed hread hknown hadmits h =>
      refine .inr ⟨hread, .inr ⟨check_filter_eq_ok.mpr ⟨hknown, hadmits⟩, ?_⟩⟩
      exact (Asked.ofFilters_eq_error ho hread).mpr ⟨_, h, rfl⟩
  · intro h
    rcases h with h | ⟨hread, h | ⟨hcheck, h⟩⟩
    · obtain ⟨a, ha, rfl⟩ := Asked.mapM_read_eq_error.mp h
      exact .noMember ha
    · rcases check_filter_eq_error.mp h with ⟨hne, rfl⟩ | ⟨hnil, a, ha, rfl⟩
      · exact .unknownFields hread hne
      · exact .operatorRefused hread (unknown_eq_nil_iff.mp hnil) ha
    · obtain ⟨hknown, hadmits⟩ := check_filter_eq_ok.mp hcheck
      obtain ⟨a, ha, rfl⟩ := (Asked.ofFilters_eq_error ho hread).mp h
      exact .notAffirmed hread hknown hadmits ha

theorem accepts_iff : w.Accepts as ↔ ∀ r, ¬ w.Refuses as r := by
  constructor
  · intro h r hr
    cases hr with
    | noMember ha =>
      have := h.read _ (List.mem_of_find?_eq_some ha)
      rw [List.find?_some ha] at this
      cases this
    | unknownFields _ hne => exact hne (unknown_eq_nil_iff.mpr h.known)
    | operatorRefused _ _ ha =>
      have := h.admitted _ (List.mem_of_find?_eq_some ha)
      rw [List.find?_some ha] at this
      cases this
    | notAffirmed _ _ _ ha =>
      have := h.affirmed _ (List.mem_of_find?_eq_some ha)
      rw [List.find?_some ha] at this
      cases this
  · intro h
    have hnone {p : Asked → Bool} (hp : ∀ a, as.find? p ≠ some a) : ∀ a ∈ as, p a = false := by
      have := List.find?_eq_none.mp (Option.eq_none_iff_forall_ne_some.mpr hp)
      simpa using this
    have hread := hnone fun a ha => h _ (.noMember ha)
    have hknown : ∀ a ∈ as, a.field ∈ w.filterFields := by
      rw [← unknown_eq_nil_iff]
      by_contra hne
      exact h _ (.unknownFields hread hne)
    have hadmits := hnone fun a ha => h _ (.operatorRefused hread hknown ha)
    exact ⟨hread, hknown, hadmits, hnone fun a ha => h _ (.notAffirmed hread hknown hadmits ha)⟩

theorem not_refuses_nil (w : Allowlist) (r : Rejection) : ¬ w.Refuses [] r := by
  have hnil (p : Asked → Prop) : ∀ a ∈ [], p a := List.forall_mem_nil p
  exact accepts_iff.mp ⟨hnil _, hnil _, hnil _, hnil _⟩ r

end Allowlist

def Parameter.Source.Readable : Source → Prop
  | absent | mapping _ | pairs _ | lists _ | other .null | other (.mapping _) => True
  | other _ => False

theorem Parameter.Source.entries_eq_error {s : Source} {e : Fault} :
    s.entries = .error e ↔ ¬ s.Readable ∧ ∃ v, s = .other v ∧ e = .notAMapping v.kind := by
  cases s with
  | other v => cases v <;> simp [entries, Readable, eq_comm]
  | _ => simp [entries, Readable]

theorem Parameter.Source.readable_iff {s : Source} :
    s.Readable ↔ ∃ entries, s.entries = .ok entries := by
  cases s with
  | other v => cases v <;> simp [entries, Readable]
  | _ => simp [entries, Readable]

namespace Grammar

def asked (filterKey : String) (entries : List Entry) : List Asked :=
  (Reading.ofEntries filterKey entries).filterMap Reading.asked?

theorem operator_mem_of_asked {filterKey : String} {entries : List Entry} {a : Asked}
    (h : a ∈ asked filterKey entries) : a.operator ∈ Operator.all := by
  obtain ⟨r, hr, ha⟩ := List.mem_filterMap.mp h
  exact Reading.named_ofEntries r hr a ha

end Grammar

namespace Policy

def asked (y : Policy) (s : Source) : List Asked :=
  match s.entries with
  | .error _ => []
  | .ok entries => Grammar.asked y.config.filterKey entries

theorem operator_mem_of_asked (y : Policy) (s : Source) :
    ∀ a ∈ y.asked s, a.operator ∈ Operator.all := by
  intro a ha
  rw [asked] at ha
  split at ha
  case h_1 => cases ha
  case h_2 => exact Grammar.operator_mem_of_asked ha

variable {y : Policy} {s : Source} {q : Query} {r : Rejection}

theorem prepare_eq_error :
    y.prepare q = .error r ↔ y.allowlist.check q.filters = .error r ∨
      y.allowlist.check q.filters = .ok () ∧ Condition.ofFilters q.filters = .error r := by
  rw [prepare, bind_eq_error]
  refine or_congr_right ?_
  constructor
  · intro h
    obtain ⟨_, hcheck, h⟩ := h
    rcases bind_eq_error.mp h with h | ⟨cs, -, h⟩
    · exact ⟨hcheck, h⟩
    · cases h
  · intro h
    exact ⟨(), h.1, bind_eq_error.mpr (.inl h.2)⟩

theorem asked_of_entries {entries : List Entry} (h : s.entries = .ok entries) :
    y.asked s = (Reading.ofEntries y.config.filterKey entries).filterMap Reading.asked? := by
  rw [asked, h]
  rfl

theorem read_of_entries {entries : List Entry} (h : s.entries = .ok entries) :
    y.read s = (((y.asked s).mapM Asked.read).map fun fs =>
      (⟨.ofEntries y.config entries, .ofEntries y.config entries, fs⟩ : Query)).mapError
        Fault.rejected := by
  rw [read, Query.ofSource_of_entries h, Query.ofEntries, Filter.ofEntries,
    Filter.ofReadings_eq_mapM, asked_of_entries h]

theorem filters_of_read (h : y.read s = .ok q) :
    (∀ a ∈ y.asked s, a.isEmptyList = false) ∧ q.filters = (y.asked s).map Asked.filter := by
  obtain ⟨entries, he, -⟩ := bind_eq_ok.mp h
  rw [read_of_entries he, mapError_eq_ok, map_eq_ok] at h
  obtain ⟨fs, hfs, rfl⟩ := h
  exact Asked.mapM_read_eq_ok.mp hfs

theorem read_eq_error {e : Fault} :
    y.read s = .error e ↔
      s.entries = .error e ∨ ∃ r, (y.asked s).mapM Asked.read = .error r ∧ e = .rejected r := by
  cases he : s.entries with
  | error e' =>
    have hnil : y.asked s = [] := by rw [asked, he]
    have hread : y.read s = .error e' := by
      rw [read, Query.ofSource, he]
      rfl
    simp [hread, hnil, pure, Except.pure]
  | ok entries =>
    simp only [read_of_entries he, mapError_eq_error, map_eq_error, reduceCtorEq, false_or,
      eq_comm (b := e)]

theorem entries_of_refuses (h : y.allowlist.Refuses (y.asked s) r) :
    ∃ entries, s.entries = .ok entries := by
  cases he : s.entries with
  | ok entries => exact ⟨entries, rfl⟩
  | error e =>
    have hnil : y.asked s = [] := by rw [asked, he]
    rw [hnil] at h
    exact absurd h (Allowlist.not_refuses_nil y.allowlist r)

theorem plan_eq_error {e : Fault} :
    y.plan s = .error e ↔
      s.entries = .error e ∨ ∃ r, y.allowlist.Refuses (y.asked s) r ∧ e = .rejected r := by
  have ho := operator_mem_of_asked y s
  rw [plan, bind_eq_error, read_eq_error]
  constructor
  · intro h
    rcases h with (h | ⟨r, hr, rfl⟩) | ⟨q, hq, h⟩
    · exact .inl h
    · exact .inr ⟨r, (Allowlist.refuses_iff ho).mpr (.inl hr), rfl⟩
    · obtain ⟨r, hr, rfl⟩ := mapError_eq_error.mp h
      obtain ⟨hread, hfilters⟩ := filters_of_read hq
      rw [prepare_eq_error, hfilters] at hr
      exact .inr ⟨r, (Allowlist.refuses_iff ho).mpr (.inr ⟨hread, hr⟩), rfl⟩
  · intro h
    rcases h with h | ⟨r, hr, rfl⟩
    · exact .inl (.inl h)
    · rcases (Allowlist.refuses_iff ho).mp hr with hread | ⟨hread, h⟩
      · exact .inl (.inr ⟨r, hread, rfl⟩)
      · obtain ⟨entries, he⟩ := entries_of_refuses hr
        refine .inr ⟨⟨.ofEntries y.config entries, .ofEntries y.config entries,
          (y.asked s).map Asked.filter⟩, ?_, ?_⟩
        · rw [read_of_entries he, Asked.mapM_read_eq_ok.mpr ⟨hread, rfl⟩]
          rfl
        · exact mapError_eq_error.mpr ⟨r, prepare_eq_error.mpr h, rfl⟩

/-- What becomes of a source, and that nothing else has a say in it. -/
structure Decides (y : Policy) (s : Source) : Prop where
  unreadable : ∀ kind, y.plan s = .error (.notAMapping kind) ↔
    ¬ s.Readable ∧ ∃ v, s = .other v ∧ kind = v.kind
  refused : ∀ r, y.plan s = .error (.rejected r) ↔ y.allowlist.Refuses (y.asked s) r
  planned : (∃ p, y.plan s = .ok p) ↔ s.Readable ∧ y.allowlist.Accepts (y.asked s)
  decided : (∃ p, y.plan s = .ok p) ∨ (∃ kind, y.plan s = .error (.notAMapping kind)) ∨
    ∃ r, y.plan s = .error (.rejected r)
  /-- Pages and orders do not count, whatever parameters and settings they come from. -/
  sameFilters : ∀ (y' : Policy) (s' : Source) (entries entries' : List Entry),
    y'.allowlist = y.allowlist → y'.config.filterKey = y.config.filterKey →
    s.entries = .ok entries → s'.entries = .ok entries' →
    entries'.filter (Reading.mayState y.config.filterKey) =
      entries.filter (Reading.mayState y.config.filterKey) →
    (∀ e, y'.plan s' = .error e ↔ y.plan s = .error e) ∧
      ((∃ p, y'.plan s' = .ok p) ↔ ∃ p, y.plan s = .ok p)
  /-- Behind a path every request has a plan or is answered with status 400 and a report. -/
  answered : ∀ path queryString, s = .ofQueryString queryString →
    (∃ p, Endpoint.plan ⟨y, path⟩ queryString = .ok p ∧ y.allowlist.Accepts (y.asked s)) ∨
      ∃ r, Endpoint.plan ⟨y, path⟩ queryString = .error (.rejected r) ∧
        y.allowlist.Refuses (y.asked s) r ∧ Endpoint.answer r = (400, r.report.json) ∧
          Endpoint.notes ⟨y, path⟩ queryString =
            y.planNotes s ++ [.requestRejected path r.message]

theorem plan_eq_rejected : y.plan s = .error (.rejected r) ↔ y.allowlist.Refuses (y.asked s) r := by
  rw [plan_eq_error, Source.entries_eq_error]
  simp

theorem plan_eq_notAMapping {kind : String} :
    y.plan s = .error (.notAMapping kind) ↔ ¬ s.Readable ∧ ∃ v, s = .other v ∧ kind = v.kind := by
  rw [plan_eq_error, Source.entries_eq_error]
  simp

theorem plan_decided (y : Policy) (s : Source) :
    (∃ p, y.plan s = .ok p) ∨ (∃ kind, y.plan s = .error (.notAMapping kind)) ∨
      ∃ r, y.plan s = .error (.rejected r) := by
  cases h : y.plan s with
  | ok p => exact .inl ⟨p, rfl⟩
  | error e =>
    right
    rcases plan_eq_error.mp h with h | ⟨r, -, rfl⟩
    · obtain ⟨-, v, -, rfl⟩ := Source.entries_eq_error.mp h
      exact .inl ⟨v.kind, rfl⟩
    · exact .inr ⟨r, rfl⟩

theorem exists_plan_iff :
    (∃ p, y.plan s = .ok p) ↔ s.Readable ∧ y.allowlist.Accepts (y.asked s) := by
  rw [Allowlist.accepts_iff]
  constructor
  · intro h
    obtain ⟨p, hp⟩ := h
    refine ⟨?_, fun r hr => ?_⟩
    · obtain ⟨q, hq, -⟩ := bind_eq_ok.mp hp
      obtain ⟨entries, he, -⟩ := bind_eq_ok.mp hq
      exact Source.readable_iff.mpr ⟨entries, he⟩
    · rw [plan_eq_rejected.mpr hr] at hp
      cases hp
  · intro h
    obtain ⟨hreadable, hrefuses⟩ := h
    rcases plan_decided y s with h | ⟨kind, h⟩ | ⟨r, h⟩
    · exact h
    · exact absurd hreadable (plan_eq_notAMapping.mp h).1
    · exact absurd (plan_eq_rejected.mp h) (hrefuses r)

theorem plan_decides (y : Policy) (s : Source) : y.Decides s where
  unreadable _ := plan_eq_notAMapping
  refused _ := plan_eq_rejected
  planned := exists_plan_iff
  decided := plan_decided y s
  sameFilters y' s' entries entries' hw hkey hs hs' hsame := by
    have hasked : y'.asked s' = y.asked s := by
      rw [asked_of_entries hs, asked_of_entries hs', hkey, Reading.asked?_ofEntries, hsame,
        ← Reading.asked?_ofEntries]
    refine ⟨fun e => ?_, ?_⟩
    · rw [plan_eq_error, plan_eq_error, hs, hs', hw, hasked]
      simp
    · rw [exists_plan_iff, exists_plan_iff, hw, hasked, Source.readable_iff, Source.readable_iff,
        hs, hs']
      simp
  answered path queryString hs := by
    subst hs
    have hplan : Endpoint.plan ⟨y, path⟩ queryString = y.plan (.ofQueryString queryString) := rfl
    rcases plan_decided y (.ofQueryString queryString) with ⟨p, h⟩ | ⟨kind, h⟩ | ⟨r, h⟩
    · exact .inl ⟨p, h, (exists_plan_iff.mp ⟨p, h⟩).2⟩
    · exact absurd trivial (plan_eq_notAMapping.mp h).1
    · refine .inr ⟨r, h, plan_eq_rejected.mp h, rfl, ?_⟩
      rw [Endpoint.notes, hplan, h]

def rolesPolicy : Policy where
  allowlist :=
    { Sample.usersAllowlist with
      restrictions := [("role", [.eq, .oneOf])]
      restrictions_filterable := by decide }
  config := .standard

/-- From request to request one fault less. -/
def faultyRequests : List (String × Rejection) :=
  [("filter[nope][eq]=1&filter[role][like]=a&filter[email][isNull]=no&filter[role][in]=,+,",
      .noMember "role"),
    ("filter[nope][eq]=1&filter[role][like]=a&filter[email][isNull]=no&filter[nope][ne]=2",
      .unknownFields ["nope"] Sample.usersAllowlist.filterFields),
    ("filter[email][isNull]=no&filter[role][like]=a", .operatorRefused ["role"] "like" []),
    ("filter[email][isNull]=no", .notAffirmed "email" .isNull)]

theorem plan_decides_faultyRequests :
    (∀ f ∈ faultyRequests, rolesPolicy.plan (.ofQueryString f.1) = .error (.rejected f.2) ∧
      rolesPolicy.allowlist.Refuses (rolesPolicy.asked (.ofQueryString f.1)) f.2) ∧
      rolesPolicy.plan (.other (.list [])) = .error (.notAMapping "list") ∧
      ∃ p, rolesPolicy.plan (.ofQueryString "filter[email][isNull]=+true&page=x") = .ok p := by
  have hplans : ∀ f ∈ faultyRequests,
      rolesPolicy.plan (.ofQueryString f.1) = .error (.rejected f.2) := by decide +kernel
  refine ⟨fun f hf => ⟨hplans f hf, ?_⟩, ?_, ?_⟩
  · exact ((plan_decides rolesPolicy (.ofQueryString f.1)).refused f.2).mp (hplans f hf)
  · exact ((plan_decides rolesPolicy (.other (.list []))).unreadable "list").mpr
      ⟨id, .list [], rfl, rfl⟩
  · refine (plan_decides rolesPolicy _).planned.mpr ⟨trivial, ?_, ?_, ?_, ?_⟩ <;> decide +kernel

end Policy

end Listing
