import Mathlib

/-! When a computation that can fail succeeds, and with which error it fails: that of the first step
that fails. -/
namespace Listing
variable {ε ε' α β γ : Type}

theorem bind_eq_ok {x : Except ε α} {f : α → Except ε β} {b : β} :
    x >>= f = .ok b ↔ ∃ a, x = .ok a ∧ f a = .ok b := by
  cases x with
  | error e =>
    constructor
    · intro h
      cases h
    · intro h
      obtain ⟨a, ha, -⟩ := h
      cases ha
  | ok a =>
    constructor
    · intro h
      exact ⟨a, rfl, h⟩
    · intro h
      obtain ⟨a', ha, h⟩ := h
      cases ha
      exact h

theorem map_eq_ok {x : Except ε α} {f : α → β} {b : β} :
    x.map f = .ok b ↔ ∃ a, x = .ok a ∧ f a = b := by
  cases x <;> simp [Except.map]

theorem mapError_eq_ok {x : Except ε α} {f : ε → ε'} {a : α} :
    x.mapError f = .ok a ↔ x = .ok a := by
  cases x <;> simp [Except.mapError]

theorem bind_eq_error {x : Except ε α} {f : α → Except ε β} {e : ε} :
    x >>= f = .error e ↔ x = .error e ∨ ∃ a, x = .ok a ∧ f a = .error e := by
  cases x with
  | error e' =>
    constructor
    · intro h
      cases h
      exact .inl rfl
    · intro h
      rcases h with h | ⟨a, ha, -⟩
      · cases h
        rfl
      · cases ha
  | ok a =>
    constructor
    · intro h
      exact .inr ⟨a, rfl, h⟩
    · intro h
      rcases h with h | ⟨a', ha, h⟩
      · cases h
      · cases ha
        exact h

theorem map_eq_error {x : Except ε α} {f : α → β} {e : ε} : x.map f = .error e ↔ x = .error e := by
  cases x <;> simp [Except.map]

theorem isOk_map (x : Except ε α) (f : α → β) : (x.map f).isOk = x.isOk := by
  cases x <;> rfl

theorem mapError_eq_error {x : Except ε α} {f : ε → ε'} {e : ε'} :
    x.mapError f = .error e ↔ ∃ e', x = .error e' ∧ f e' = e := by
  cases x <;> simp [Except.mapError]

theorem filterMap_toOption_map_ok (l : List α) :
    (l.map (Except.ok : α → Except ε α)).filterMap Except.toOption = l := by
  rw [List.filterMap_map]
  exact List.filterMap_some

theorem mapM_eq_ok {f : α → Except ε β} {l : List α} {r : List β} :
    l.mapM f = .ok r ↔ l.map f = r.map .ok := by
  induction l generalizing r with
  | nil =>
    rw [List.mapM_nil, List.map_nil, eq_comm, eq_comm (a := []), List.map_eq_nil_iff]
    exact ⟨fun h => by cases h; rfl, fun h => by rw [h]; rfl⟩
  | cons a l ih =>
    rw [List.mapM_cons, bind_eq_ok, List.map_cons]
    constructor
    · intro h
      obtain ⟨b, hb, h⟩ := h
      obtain ⟨bs, hbs, h⟩ := bind_eq_ok.mp h
      cases h
      rw [List.map_cons, hb, ih.mp hbs]
    · intro h
      cases r with
      | nil => cases h
      | cons b bs =>
        rw [List.map_cons, List.cons.injEq] at h
        exact ⟨b, h.1, bind_eq_ok.mpr ⟨bs, ih.mpr h.2, rfl⟩⟩

theorem forall₂_of_mapM {f : α → Except ε β} {l : List α} {r : List β} (h : l.mapM f = .ok r) :
    List.Forall₂ (fun a b => f a = .ok b) l r := by
  have heq : List.Forall₂ Eq (l.map f) (r.map .ok) := by
    rw [List.forall₂_eq_eq_eq]
    exact mapM_eq_ok.mp h
  rw [List.forall₂_map_left_iff, List.forall₂_map_right_iff] at heq
  exact heq

theorem exists_mem_of_mapM {f : α → Except ε β} {l : List α} {r : List β} (h : l.mapM f = .ok r)
    {a : α} (ha : a ∈ l) : ∃ b ∈ r, f a = .ok b := by
  have hmem : f a ∈ r.map Except.ok := mapM_eq_ok.mp h ▸ List.mem_map_of_mem ha
  obtain ⟨b, hb, hf⟩ := List.mem_map.mp hmem
  exact ⟨b, hb, hf.symm⟩

theorem exists_of_mapM {f : α → Except ε β} {l : List α} {r : List β} (h : l.mapM f = .ok r) {b : β}
    (hb : b ∈ r) : ∃ a ∈ l, f a = .ok b := by
  have hmem : Except.ok b ∈ l.map f := mapM_eq_ok.mp h ▸ List.mem_map_of_mem hb
  obtain ⟨a, ha, hf⟩ := List.mem_map.mp hmem
  exact ⟨a, ha, hf⟩

theorem exists_mapM {f : α → Except ε β} {motive : β → Prop} {l : List α}
    (h : ∀ a ∈ l, ∃ b, f a = .ok b ∧ motive b) : ∃ r, l.mapM f = .ok r ∧ ∀ b ∈ r, motive b := by
  induction l with
  | nil => exact ⟨[], rfl, by simp⟩
  | cons a l ih =>
    obtain ⟨b, hb, hmotive⟩ := h a List.mem_cons_self
    obtain ⟨bs, hbs, hall⟩ := ih fun a' ha' => h a' (List.mem_cons_of_mem a ha')
    refine ⟨b :: bs, ?_, List.forall_mem_cons.mpr ⟨hmotive, hall⟩⟩
    rw [List.mapM_cons, hb, bind_eq_ok]
    exact ⟨b, rfl, bind_eq_ok.mpr ⟨bs, hbs, rfl⟩⟩

theorem mapM_eq_error {f : α → Except ε β} {l : List α} {e : ε} :
    l.mapM f = .error e ↔ ∃ a, l.find? (fun a => !(f a).isOk) = some a ∧ f a = .error e := by
  induction l with
  | nil => simp [pure, Except.pure]
  | cons a l ih =>
    rw [List.mapM_cons, bind_eq_error, List.find?_cons]
    cases hfa : f a with
    | error e' => simp [Except.isOk, Except.toBool, hfa]
    | ok b =>
      have hrest : (∃ b', Except.ok b = Except.ok (ε := ε) b' ∧
          (do let bs ← l.mapM f; pure (b' :: bs)) = .error e) ↔ l.mapM f = .error e := by
        constructor
        · intro h
          obtain ⟨b', -, h⟩ := h
          rcases bind_eq_error.mp h with h | ⟨bs, -, h⟩
          · exact h
          · cases h
        · intro h
          exact ⟨b, rfl, bind_eq_error.mpr (.inl h)⟩
      simp only [reduceCtorEq, false_or, hrest, ih, Except.isOk, Except.toBool, Bool.not_true]

theorem mapM_filterMap (f : α → Option β) (g : β → Except ε γ) (l : List α) :
    (l.filterMap f).mapM g = (l.mapM fun a => (f a).toList.mapM g).map List.flatten := by
  induction l with
  | nil => rfl
  | cons a l ih =>
    rw [List.mapM_cons, List.filterMap_cons]
    cases hfa : f a with
    | none =>
      rw [ih]
      cases l.mapM fun a => (f a).toList.mapM g <;> rfl
    | some b =>
      rw [Option.toList_some, List.mapM_cons, List.mapM_cons, ih]
      cases g b with
      | error e => rfl
      | ok c => cases l.mapM fun a => (f a).toList.mapM g <;> rfl

theorem mapError_mapM (f : α → Except ε β) (g : ε → ε') (l : List α) :
    (l.mapM f).mapError g = l.mapM fun a => (f a).mapError g := by
  induction l with
  | nil => rfl
  | cons a l ih =>
    rw [List.mapM_cons, List.mapM_cons, ← ih]
    cases f a with
    | error e => rfl
    | ok b => cases l.mapM f <;> rfl

theorem mapError_map (x : Except ε α) (f : α → β) (g : ε → ε') :
    (x.map f).mapError g = (x.mapError g).map f := by
  cases x <;> rfl

end Listing
