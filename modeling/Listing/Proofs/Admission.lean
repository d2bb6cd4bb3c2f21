import Mathlib
import Listing.Proofs.Reading
import Listing.Sample.Users

/-! What a plan says that was made from a flat source.
Every parameter named for a field and an operator has its condition in the plan, in the order of the
parameters, and the condition is made from the last text under that name. Fields and operators of
all conditions are among those that the allowlist admits, and so is the field that is sorted by. -/
namespace Listing
open Listing.Parameter Listing.Text

def Operator.relation? : Operator → Option Relation
  | eq => some .eq
  | ne => some .ne
  | like | contains | startsWith | endsWith => some .like
  | oneOf => some .oneOf
  | gt => some .gt
  | gte => some .gte
  | lt => some .lt
  | lte => some .lte
  | isNull => some .isNull
  | notNull => some .isNotNull
  | custom _ => none

def Operator.operand (o : Operator) (text : String) : Operand :=
  match o with
  | contains => .one (.text ("%" ++ text ++ "%"))
  | startsWith => .one (.text (text ++ "%"))
  | endsWith => .one (.text ("%" ++ text))
  | oneOf => .many ((FilterValue.itemsOf text).map .text)
  | isNull | notNull => .one .null
  | _ => .one (.text text)

/-- A condition is what a field, an operator and a text ask for; a null check has to be affirmed. -/
structure Condition.IsStated (field : String) (o : Operator) (text : String) (c : Condition) :
    Prop where
  field : c.field = field
  relation : o.relation? = some c.relation
  operand : c.operand = o.operand text
  affirmed : o.isNullCheck = true → strip text = "true"

namespace Condition

theorem of_nullCheck {f : Filter} {r : Relation} {c : Condition} (h : nullCheck f r = .ok c) :
    affirmed f = true ∧ c = ⟨f.field, r, .one .null⟩ := by
  rw [nullCheck] at h
  split at h
  case isTrue ht =>
    cases h
    exact ⟨ht, rfl⟩
  case isFalse => cases h

theorem relation_of_ofFilter {f : Filter} {c : Condition} (h : ofFilter f = .ok c) :
    f.operator.relation? = some c.relation := by
  rcases f with ⟨field, o, v⟩
  cases o with
  | eq | ne | gt | gte | lt | lte =>
    obtain ⟨t, -, rfl⟩ := map_eq_ok.mp h
    rfl
  | like | contains | startsWith | endsWith =>
    obtain ⟨t, -, rfl⟩ := map_eq_ok.mp h
    rfl
  | oneOf =>
    obtain ⟨ts, -, rfl⟩ := map_eq_ok.mp h
    rfl
  | isNull | notNull =>
    obtain ⟨-, rfl⟩ := of_nullCheck h
    rfl
  | custom name => cases h

theorem membersOf_members {field : String} {o : Operator} {ts : List String} (hne : ts ≠ [])
    (h : ∀ t ∈ ts, t ≠ "") : membersOf ⟨field, o, .members ts⟩ = .ok ts := by
  have hkeep : ts.filter (· != "") = ts := by
    rw [List.filter_eq_self]
    exact fun t ht => bne_iff_ne.mpr (h t ht)
  simp only [membersOf, hkeep]

theorem operand_of_ofFilter {field : String} {o : Operator} {text : String} {v : FilterValue}
    {c : Condition} (hv : FilterValue.ofRaw field o (.text text) = .ok v)
    (h : ofFilter ⟨field, o, v⟩ = .ok c) : c.operand = o.operand text := by
  have hcanonical := FilterValue.isCanonical_of_ofRaw hv
  obtain rfl := FilterValue.eq_of_ofRaw hv
  cases o with
  | eq | ne | gt | gte | lt | lte =>
    cases h
    rfl
  | like | contains | startsWith | endsWith =>
    cases h
    simp [Operator.operand]
  | oneOf =>
    obtain ⟨-, hne, hitems⟩ := hcanonical
    simp only [ofFilter, Operator.isList, if_true,
      membersOf_members hne fun t ht => (hitems t ht).ne_empty] at h
    cases h
    rfl
  | isNull | notNull =>
    obtain ⟨-, rfl⟩ := of_nullCheck h
    rfl
  | custom name => cases h

theorem affirmed_of_ofFilter {field : String} {o : Operator} {text : String} {v : FilterValue}
    {c : Condition} (hv : FilterValue.ofRaw field o (.text text) = .ok v)
    (h : ofFilter ⟨field, o, v⟩ = .ok c) (ho : o.isNullCheck = true) : strip text = "true" := by
  obtain rfl := FilterValue.eq_of_ofRaw hv
  cases o with
  | isNull | notNull =>
    have ht := (of_nullCheck h).1
    rw [← String.toList_inj, toList_strip]
    exact beq_iff_eq.mp ht
  | _ => cases ho

theorem isStated_of_ofFilter {field : String} {o : Operator} {text : String} {v : FilterValue}
    {c : Condition} (hv : FilterValue.ofRaw field o (.text text) = .ok v)
    (h : ofFilter ⟨field, o, v⟩ = .ok c) : IsStated field o text c where
  field := field_of_ofFilter h
  relation := relation_of_ofFilter h
  operand := operand_of_ofFilter hv h
  affirmed := affirmed_of_ofFilter hv h

def ofParameter? (filterKey : String) (p : String × String) : Option Condition :=
  (Filter.ofParameter? filterKey p).bind fun x =>
    x.toOption.bind fun f => (ofFilter f).toOption

section Stated
variable {filterKey : String} {ps : List (String × String)} {fs : List Filter} {cs : List Condition}

theorem eq_filterMap_ofParameter? (h : ps.filterMap (Filter.ofParameter? filterKey) = fs.map .ok)
    (hc : ofFilters fs = .ok cs) : cs = ps.filterMap (ofParameter? filterKey) := by
  have hfs : (ps.filterMap (Filter.ofParameter? filterKey)).filterMap Except.toOption = fs := by
    rw [h, filterMap_toOption_map_ok]
  have hcs : (fs.map ofFilter).filterMap Except.toOption = cs := by
    rw [mapM_eq_ok.mp hc, filterMap_toOption_map_ok]
  rw [← hcs, ← hfs, List.filterMap_map, List.filterMap_filterMap, List.filterMap_filterMap]
  exact List.filterMap_congr fun p _ => rfl

theorem ok_of_mem (hc : ofFilters fs = .ok cs) {f : Filter} (hf : f ∈ fs) :
    ∃ c, ofFilter f = .ok c := by
  obtain ⟨c, -, h⟩ := exists_mem_of_mapM hc hf
  exact ⟨c, h⟩

theorem exists_isStated (h : ps.filterMap (Filter.ofParameter? filterKey) = fs.map .ok)
    (hc : ofFilters fs = .ok cs) {p : String × String} (hp : p ∈ ps) {field : String}
    {o : Operator} (hf : Bracket.IsLabel field.toList) (ho : o ∈ Operator.all)
    (hname : p.1 = Bracket.name filterKey field o.name ∨
      p.1 = Bracket.name filterKey field o.name ++ Bracket.lineFeed) :
    ∃ f ∈ fs, ∃ c, ofParameter? filterKey p = some c ∧ f.field = field ∧ f.operator = o ∧
      IsStated field o p.2 c := by
  have hx := Filter.ofParameter?_of_name hf ho hname
  obtain ⟨f, hok⟩ := Filter.ok_of_ofParameter? h hp hx
  have hmem : f ∈ fs := by
    have : Except.ok f ∈ fs.map Except.ok := h ▸ List.mem_filterMap.mpr ⟨p, hp, hok ▸ hx⟩
    obtain ⟨g, hg, he⟩ := List.mem_map.mp this
    cases he
    exact hg
  obtain ⟨v, hv, rfl⟩ := map_eq_ok.mp hok
  obtain ⟨c, hcondition⟩ := ok_of_mem hc hmem
  refine ⟨_, hmem, c, ?_, rfl, rfl, isStated_of_ofFilter hv hcondition⟩
  rw [ofParameter?, hx, hok, Option.bind_some]
  show (ofFilter _).toOption = _
  rw [hcondition]
  rfl

theorem name_of_ofParameter? {p : String × String} {c : Condition}
    (h : ofParameter? filterKey p = some c) :
    ∃ field o, Bracket.IsLabel field.toList ∧ o ∈ Operator.all ∧
      (p.1 = Bracket.name filterKey field o.name ∨
        p.1 = Bracket.name filterKey field o.name ++ Bracket.lineFeed) := by
  obtain ⟨x, hx, -⟩ := Option.bind_eq_some_iff.mp h
  obtain ⟨field, o, hf, ho, hname, -⟩ := Filter.name_of_ofParameter? hx
  exact ⟨field, o, hf, ho, hname⟩

end Stated
end Condition

def Allowlist.Admits (w : Allowlist) (field : String) (o : Operator) : Prop :=
  field ∈ w.filterFields ∧ ∀ operators, w.restriction? field = some operators → o ∈ operators

theorem Allowlist.admits_of_check {w : Allowlist} {fs : List Filter} (h : w.check fs = .ok ())
    {f : Filter} (hf : f ∈ fs) : w.Admits f.field f.operator := by
  obtain ⟨hfield, hoperator⟩ := check_eq_ok.mp h f hf
  refine ⟨List.contains_iff_mem.mp hfield, fun operators hr => ?_⟩
  rw [admits, hr] at hoperator
  exact List.contains_iff_mem.mp hoperator

def Config.requestedField (c : Config) (s : Source) : Option String :=
  (s.last? c.sortByKey).bind fun t => if strip t = "" then none else some (strip t)

def Config.requestedDirection (c : Config) (s : Source) : Option Direction :=
  (s.last? c.sortOrderKey).bind Direction.ofText?

theorem OrderRequest.ofEntries_flat (c : Config) (s : Source) :
    ofEntries c (textEntries s.parameters) = ⟨c.requestedField s, c.requestedDirection s⟩ := by
  rw [ofEntries, lookup_textEntries, lookup_textEntries, Source.lookup_parameters,
    Source.lookup_parameters, Config.requestedField, Config.requestedDirection]
  congr 1
  · cases s.last? c.sortByKey with
    | none => rfl
    | some t => exact Query.fieldOf_text t
  · cases s.last? c.sortOrderKey <;> rfl

namespace Policy
open Sample

theorem prepare_eq_ok {y : Policy} {q : Query} {p : Plan} :
    y.prepare q = .ok p ↔
      y.allowlist.check q.filters = .ok () ∧ Condition.ofFilters q.filters = .ok p.conditions ∧
        p = ⟨q, p.conditions, y.allowlist.resolve q.order, q.page.limit, q.page.offset⟩ := by
  rw [prepare, bind_eq_ok]
  constructor
  · intro h
    obtain ⟨_, hcheck, h⟩ := h
    obtain ⟨conditions, hc, h⟩ := bind_eq_ok.mp h
    cases h
    exact ⟨hcheck, hc, rfl⟩
  · intro h
    obtain ⟨hcheck, hc, hp⟩ := h
    exact ⟨(), hcheck, bind_eq_ok.mpr ⟨p.conditions, hc, congrArg Except.ok hp.symm⟩⟩

theorem plan_eq_ok {y : Policy} {s : Source} {p : Plan} :
    y.plan s = .ok p ↔
      y.read s = .ok p.query ∧ y.allowlist.check p.query.filters = .ok () ∧
        Condition.ofFilters p.query.filters = .ok p.conditions ∧
        p.order = y.allowlist.resolve p.query.order ∧ p.limit = p.query.page.limit ∧
        p.offset = p.query.page.offset := by
  rw [plan, bind_eq_ok]
  simp only [mapError_eq_ok, prepare_eq_ok]
  constructor
  · intro h
    obtain ⟨q, hq, hcheck, hc, hp⟩ := h
    rw [hp] at hc ⊢
    exact ⟨hq, hcheck, hc, rfl, rfl, rfl⟩
  · intro h
    obtain ⟨hq, hcheck, hc, horder, hlimit, hoffset⟩ := h
    refine ⟨p.query, hq, hcheck, hc, ?_⟩
    rw [← horder, ← hlimit, ← hoffset]

/-- What each parameter contributes to a plan: a parameter that is named for a field and an operator
the condition that it states, and one that is named otherwise nothing, unless it is only a line feed
that its name has too many. -/
structure Contributes (y : Policy) (s : Source) (share : String → Option Condition) : Prop where
  stated : ∀ field o, Bracket.IsLabel field.toList → o ∈ Operator.all →
    Bracket.name y.config.filterKey field o.name ∈ s.keys →
      y.allowlist.Admits field o ∧
      ∃ c, share (Bracket.name y.config.filterKey field o.name) = some c ∧
        Condition.IsStated field o (s.last (Bracket.name y.config.filterKey field o.name)) c
  named : ∀ k c, share k = some c → ∃ field o, Bracket.IsLabel field.toList ∧ o ∈ Operator.all ∧
    (k = Bracket.name y.config.filterKey field o.name ∨
      k = Bracket.name y.config.filterKey field o.name ++ Bracket.lineFeed)

/-- No filter is lost on the way into a plan, and nothing that is not admitted gets there. -/
structure Admits (y : Policy) (s : Source) (p : Plan) : Prop where
  keys_nodup : s.keys.Nodup
  conditions : ∃ share, p.conditions = s.keys.filterMap share ∧ y.Contributes s share
  filters : List.Forall₂ (fun (f : Filter) (c : Condition) =>
    y.allowlist.Admits f.field f.operator ∧ c.field = f.field ∧
      f.operator.relation? = some c.relation) p.query.filters p.conditions
  sortable : p.order.field ∈ y.allowlist.sortFields
  requested : ∀ f ∈ y.config.requestedField s, f ∈ y.allowlist.sortFields →
    p.order = ⟨f, (y.config.requestedDirection s).getD .asc⟩
  default : (∀ f ∈ y.config.requestedField s, f ∉ y.allowlist.sortFields) →
    p.order = ⟨y.allowlist.defaultOrder.field,
      (y.config.requestedDirection s).getD y.allowlist.defaultOrder.direction⟩

theorem plan_admits (y : Policy) (s : Source) (p : Plan) (hs : s.Flat) (h : y.plan s = .ok p) :
    y.Admits s p := by
  obtain ⟨hread, hcheck, hconditions, horder, -, -⟩ := plan_eq_ok.mp h
  obtain ⟨hfilters, -, hrequest⟩ := (Query.ofSource_eq_ok hs).mp hread
  rw [OrderRequest.ofEntries_flat] at hrequest
  refine ⟨hs.keys_nodup, ⟨fun k => Condition.ofParameter? y.config.filterKey (k, s.last k),
    ?_, ?_, ?_⟩, ?_, ?_, ?_, ?_⟩
  · rw [Condition.eq_filterMap_ofParameter? hfilters hconditions, Source.parameters,
      List.filterMap_map]
    rfl
  · intro field o hf ho hk
    have hparameter : (_, s.last _) ∈ s.parameters := List.mem_map_of_mem hk
    obtain ⟨f, hmem, c, hc, rfl, rfl, hstated⟩ :=
      Condition.exists_isStated hfilters hconditions hparameter hf ho (.inl rfl)
    exact ⟨Allowlist.admits_of_check hcheck hmem, c, hc, hstated⟩
  · intro k c hc
    exact Condition.name_of_ofParameter? hc
  · refine (List.forall₂_and_left _ _).mpr ⟨fun f hf => Allowlist.admits_of_check hcheck hf, ?_⟩
    refine (forall₂_of_mapM hconditions).imp fun f c hc => ?_
    exact ⟨Condition.field_of_ofFilter hc, Condition.relation_of_ofFilter hc⟩
  · rw [horder]
    exact Allowlist.resolve_mem _ _
  · intro f hf hsort
    rw [horder, hrequest, Allowlist.resolve, hf]
    exact if_pos (List.contains_iff_mem.mpr hsort)
  · intro hsort
    rw [horder, hrequest, Allowlist.resolve]
    cases hf : y.config.requestedField s with
    | none => rfl
    | some f =>
      refine if_neg ?_
      rw [Allowlist.allowsSort, List.contains_iff_mem]
      exact hsort f hf

def mixedSource : Source := .pairs (textEntries
  [("filter[role][eq]", "admin"), ("filter[age][gte]", "30"), ("filter[role][eq]", "viewer"),
    ("filter[age][near]", "30"), ("sortBy", " age "), ("sortOrder", "DESC"), ("filter", "x")])

def mixedPlan : Plan where
  query := ⟨⟨1, 20⟩, ⟨some "age", some .desc⟩,
    [⟨"role", .eq, .single "viewer"⟩, ⟨"age", .gte, .single "30"⟩]⟩
  conditions := [⟨"role", .eq, .one (.text "viewer")⟩, ⟨"age", .gte, .one (.text "30")⟩]
  order := ⟨"age", .desc⟩
  limit := some 20
  offset := 0

theorem plan_admits_mixedSource :
    mixedSource.Flat ∧ usersPolicy.plan mixedSource = .ok mixedPlan ∧
      ∃ c, c ∈ mixedPlan.conditions ∧ Condition.IsStated "role" .eq "viewer" c := by
  have hflat : mixedSource.Flat := by
    intro p hp
    obtain ⟨q, -, rfl⟩ := List.mem_map.mp hp
    exact ⟨q.2, rfl⟩
  have hplan : usersPolicy.plan mixedSource = .ok mixedPlan := by decide +kernel
  obtain ⟨share, hconditions, hshare⟩ :=
    (usersPolicy.plan_admits mixedSource mixedPlan hflat hplan).conditions
  obtain ⟨-, c, hc, hstated⟩ := hshare.stated "role" .eq (by decide) (by decide) (by decide)
  refine ⟨hflat, hplan, c, ?_, ?_⟩
  · rw [hconditions]
    exact List.mem_filterMap.mpr ⟨"filter[role][eq]", by decide, hc⟩
  · exact hstated

end Policy
end Listing
