import Mathlib
import Listing.Proofs.Bracket
import Listing.Proofs.Entries
import Listing.Proofs.Items
import Listing.Proofs.Success

/-! The filters that parameters state.
Reading succeeds with exactly the filters that its readings ask for, in order. Of a list of
parameters with texts as values each states at most one filter, the one whose name it has, and every
filter that is read is canonical: it would be read from its own written form too. -/
namespace Listing
open Listing.Parameter

def Reading.filter? : Reading → Option (Except Rejection Filter)
  | ignored _ => none
  | asked field o raw => some ((FilterValue.ofRaw field o raw).map (⟨field, o, ·⟩))

namespace Filter

theorem ofReadings_eq_ok {rs : List Reading} {fs : List Filter} :
    ofReadings rs = .ok fs ↔ rs.filterMap Reading.filter? = fs.map .ok := by
  induction rs generalizing fs with
  | nil =>
    cases fs with
    | nil => simp [ofReadings]
    | cons f fs => simp [ofReadings]
  | cons r rs ih =>
    cases r with
    | ignored e => exact ih
    | asked field o raw =>
      have hr : Reading.filter? (.asked field o raw) =
          some ((FilterValue.ofRaw field o raw).map (⟨field, o, ·⟩)) := rfl
      rw [ofReadings, List.filterMap_cons_some hr]
      cases FilterValue.ofRaw field o raw with
      | error e => cases fs <;> simp [Except.map]
      | ok v =>
        simp only [map_eq_ok, ih]
        cases fs with
        | nil => simp
        | cons f fs => simp [Except.map, and_comm]

def ofParameter? (filterKey : String) (p : String × String) : Option (Except Rejection Filter) :=
  (Bracket.parts? filterKey p.1).bind fun n =>
    (Operator.ofName? n.2).map fun o =>
      (FilterValue.ofRaw n.1 o (.text p.2)).map (⟨n.1, o, ·⟩)

theorem filter?_ofFlat (filterKey : String) (p : String × String) :
    (Reading.ofFlat filterKey p.1 (.text p.2)).filterMap Reading.filter? =
      (ofParameter? filterKey p).toList := by
  rw [Reading.ofFlat, ofParameter?]
  cases Bracket.parts? filterKey p.1 with
  | none =>
    dsimp only
    split <;> rfl
  | some n =>
    show [Reading.ofName n.1 n.2 (.text p.2)].filterMap Reading.filter? = _
    rw [Reading.ofName]
    cases h : Operator.ofName? n.2 <;> simp [Reading.filter?, h]

theorem ofEntries_textEntries {filterKey : String} {ps : List (String × String)}
    {fs : List Filter} :
    ofEntries filterKey (textEntries ps) = .ok fs ↔
      ps.filterMap (ofParameter? filterKey) = fs.map .ok := by
  have hreadings : (Reading.ofEntries filterKey (textEntries ps)).filterMap Reading.filter? =
      ps.filterMap (ofParameter? filterKey) := by
    rw [Reading.ofEntries, textEntries, List.flatMap_map, List.filterMap_flatMap,
      List.filterMap_eq_flatMap_toList]
    exact List.flatMap_congr fun p _ => filter?_ofFlat filterKey p
  rw [ofEntries, ofReadings_eq_ok, hreadings]

structure IsCanonical (f : Filter) : Prop where
  field : Bracket.IsLabel f.field.toList
  operator : f.operator ∈ Operator.all
  value : f.value.IsCanonical f.operator

instance (f : Filter) : Decidable f.IsCanonical :=
  decidable_of_iff (Bracket.IsLabel f.field.toList ∧ f.operator ∈ Operator.all ∧
      f.value.IsCanonical f.operator)
    ⟨fun h => ⟨h.1, h.2.1, h.2.2⟩, fun h => ⟨h.1, h.2, h.3⟩⟩

def parameterName (filterKey : String) (f : Filter) : String :=
  Bracket.name filterKey f.field f.operator.name

def parameter (filterKey : String) (f : Filter) : String × String :=
  (f.parameterName filterKey, f.value.joined)

theorem ofParameter?_of_name {filterKey field : String} {o : Operator} {p : String × String}
    (hf : Bracket.IsLabel field.toList) (ho : o ∈ Operator.all)
    (hp : p.1 = Bracket.name filterKey field o.name ∨
      p.1 = Bracket.name filterKey field o.name ++ Bracket.lineFeed) :
    ofParameter? filterKey p =
      some ((FilterValue.ofRaw field o (.text p.2)).map (⟨field, o, ·⟩)) := by
  have hparts : Bracket.parts? filterKey p.1 = some (field, o.name) :=
    Bracket.parts?_eq_some_iff.mpr ⟨hf, Bracket.isLabel_name ho, hp⟩
  rw [ofParameter?, hparts, Option.bind_some, Operator.ofName?_name ho, Option.map_some]

theorem ofParameter?_parameter {f : Filter} (h : f.IsCanonical) (filterKey : String) :
    ofParameter? filterKey (f.parameter filterKey) = some (.ok f) := by
  rw [ofParameter?_of_name h.field h.operator (.inl rfl)]
  have hv : FilterValue.ofRaw f.field f.operator (.text (f.parameter filterKey).2) = .ok f.value :=
    FilterValue.ofRaw_joined h.value f.field
  rw [hv]
  rfl

theorem name_of_ofParameter? {filterKey : String} {p : String × String}
    {x : Except Rejection Filter} (h : ofParameter? filterKey p = some x) :
    ∃ field o, Bracket.IsLabel field.toList ∧ o ∈ Operator.all ∧
      (p.1 = Bracket.name filterKey field o.name ∨
        p.1 = Bracket.name filterKey field o.name ++ Bracket.lineFeed) ∧
      x = (FilterValue.ofRaw field o (.text p.2)).map (⟨field, o, ·⟩) := by
  obtain ⟨⟨field, name⟩, hparts, h⟩ := Option.bind_eq_some_iff.mp h
  obtain ⟨o, hname, rfl⟩ := Option.map_eq_some_iff.mp h
  obtain ⟨ho, rfl⟩ := Operator.ofName?_eq_some hname
  obtain ⟨hf, -, hp⟩ := Bracket.parts?_eq_some_iff.mp hparts
  exact ⟨field, o, hf, ho, hp, rfl⟩

theorem of_ofParameter? {filterKey : String} {p : String × String} {f : Filter}
    (h : ofParameter? filterKey p = some (.ok f)) :
    f.IsCanonical ∧
      (p.1 = f.parameterName filterKey ∨ p.1 = f.parameterName filterKey ++ Bracket.lineFeed) := by
  obtain ⟨field, o, hf, ho, hp, hx⟩ := name_of_ofParameter? h
  obtain ⟨v, hv, rfl⟩ := map_eq_ok.mp hx.symm
  exact ⟨⟨hf, ho, FilterValue.isCanonical_of_ofRaw hv⟩, hp⟩

theorem parameterName_inj {filterKey : String} {f g : Filter} (hf : f.IsCanonical)
    (hg : g.IsCanonical) :
    f.parameterName filterKey = g.parameterName filterKey ↔
      (f.field, f.operator) = (g.field, g.operator) := by
  constructor
  · intro h
    have hpf := Bracket.parts?_name hf.field (Bracket.isLabel_name hf.operator) filterKey
    have hpg := Bracket.parts?_name hg.field (Bracket.isLabel_name hg.operator) filterKey
    rw [parameterName, parameterName] at h
    rw [h, hpg, Option.some.injEq, Prod.mk.injEq] at hpf
    have ho : some g.operator = some f.operator := by
      rw [← Operator.ofName?_name hg.operator, ← Operator.ofName?_name hf.operator, hpf.2]
    rw [hpf.1, Option.some.inj ho]
  · intro h
    rw [Prod.mk.injEq] at h
    rw [parameterName, parameterName, h.1, h.2]

def Distinct (fs : List Filter) : Prop := (fs.map fun f => (f.field, f.operator)).Nodup

instance (fs : List Filter) : Decidable (Distinct fs) := inferInstanceAs (Decidable (List.Nodup _))

/-- Some filter is stated twice, by a name with a line feed at its end and by the same without. -/
def Twin (filterKey : String) (keys : List String) : Prop :=
  ∃ field o, Bracket.IsLabel field.toList ∧ o ∈ Operator.all ∧
    Bracket.name filterKey field (Operator.name o) ∈ keys ∧
      Bracket.name filterKey field (Operator.name o) ++ Bracket.lineFeed ∈ keys

def Apart (x y : Except Rejection Filter) : Prop :=
  ∀ f g, x = .ok f → y = .ok g → (f.field, f.operator) ≠ (g.field, g.operator)

theorem Apart.symm {x y : Except Rejection Filter} (h : Apart x y) : Apart y x :=
  fun f g hf hg he => h g f hg hf he.symm

theorem distinct_iff_apart {fs : List Filter} :
    Distinct fs ↔ (fs.map (Except.ok : Filter → Except Rejection Filter)).Pairwise Apart := by
  rw [Distinct, List.Nodup, List.pairwise_map, List.pairwise_map]
  refine List.Pairwise.iff fun f g => ⟨?_, fun hfg => hfg f g rfl rfl⟩
  rintro hfg _ _ ⟨⟩ ⟨⟩
  exact hfg

def ParametersApart (filterKey : String) (p p' : String × String) : Prop :=
  ∀ x, ofParameter? filterKey p = some x → ∀ y, ofParameter? filterKey p' = some y → Apart x y

section Stated
variable {filterKey : String} {ps : List (String × String)} {fs : List Filter}

theorem distinct_iff_parametersApart (h : ps.filterMap (ofParameter? filterKey) = fs.map .ok) :
    Distinct fs ↔ ps.Pairwise (ParametersApart filterKey) := by
  rw [distinct_iff_apart, ← h, List.pairwise_filterMap]
  rfl

theorem ok_of_ofParameter? (h : ps.filterMap (ofParameter? filterKey) = fs.map .ok)
    {p : String × String} (hp : p ∈ ps) {x : Except Rejection Filter}
    (hx : ofParameter? filterKey p = some x) : ∃ f, x = .ok f := by
  have hmem : x ∈ fs.map Except.ok := h ▸ List.mem_filterMap.mpr ⟨p, hp, hx⟩
  obtain ⟨f, -, rfl⟩ := List.mem_map.mp hmem
  exact ⟨f, rfl⟩

theorem not_twin_of_distinct (h : ps.filterMap (ofParameter? filterKey) = fs.map .ok)
    (hd : Distinct fs) : ¬ Twin filterKey (ps.map (·.1)) := by
  intro ht
  obtain ⟨field, o, hf, ho, hk, hk'⟩ := ht
  obtain ⟨p, hp, hpk⟩ := List.mem_map.mp hk
  obtain ⟨p', hp', hpk'⟩ := List.mem_map.mp hk'
  have hne : p ≠ p' := by
    rintro rfl
    have hlen := congrArg String.length (hpk.symm.trans hpk')
    simp [Bracket.lineFeed] at hlen
  have : Std.Symm (ParametersApart filterKey) :=
    ⟨fun _ _ hab x hx y hy => (hab y hy x hx).symm⟩
  have hx := ofParameter?_of_name hf ho (.inl hpk)
  have hy := ofParameter?_of_name hf ho (.inr hpk')
  obtain ⟨f, hxf⟩ := ok_of_ofParameter? h hp hx
  obtain ⟨g, hyg⟩ := ok_of_ofParameter? h hp' hy
  refine ((distinct_iff_parametersApart h).mp hd).forall hp hp' hne _ hx _ hy f g hxf hyg ?_
  obtain ⟨v, -, rfl⟩ := map_eq_ok.mp hxf
  obtain ⟨w, -, rfl⟩ := map_eq_ok.mp hyg
  rfl

theorem distinct_of_not_twin (hps : (ps.map (·.1)).Nodup)
    (h : ps.filterMap (ofParameter? filterKey) = fs.map .ok)
    (ht : ¬ Twin filterKey (ps.map (·.1))) : Distinct fs := by
  rw [distinct_iff_parametersApart h]
  rw [List.Nodup, List.pairwise_map] at hps
  refine hps.imp_of_mem ?_
  rintro p p' hp hp' hne _ hx _ hy f g rfl rfl he
  obtain ⟨hf, hpf⟩ := of_ofParameter? hx
  obtain ⟨hg, hpg⟩ := of_ofParameter? hy
  rw [← (parameterName_inj hf hg).mpr he] at hpg
  have hmem : p.1 ∈ ps.map (·.1) := List.mem_map_of_mem hp
  have hmem' : p'.1 ∈ ps.map (·.1) := List.mem_map_of_mem hp'
  -- Distinct keys with one name: one of the two has the line feed and the other has not.
  rcases hpf with hpf | hpf <;> rcases hpg with hpg | hpg
  · exact hne (hpf.trans hpg.symm)
  · rw [hpf] at hmem
    rw [hpg] at hmem'
    exact ht ⟨f.field, f.operator, hf.field, hf.operator, hmem, hmem'⟩
  · rw [hpf] at hmem
    rw [hpg] at hmem'
    exact ht ⟨f.field, f.operator, hf.field, hf.operator, hmem', hmem⟩
  · exact hne (hpf.trans hpg.symm)

theorem distinct_iff_not_twin (hps : (ps.map (·.1)).Nodup)
    (h : ps.filterMap (ofParameter? filterKey) = fs.map .ok) :
    Distinct fs ↔ ¬ Twin filterKey (ps.map (·.1)) :=
  ⟨not_twin_of_distinct h, distinct_of_not_twin hps h⟩

end Stated
end Filter
end Listing
