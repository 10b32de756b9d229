import Mathlib.Data.List.Forall2
/-!
# Computations that may fail

A computation in steps ends well exactly if every step does, so what each step keeps is kept to the end.
-/
namespace Dataflow

theorem bind_ok_iff {ε α β : Type} {x : Except ε α} {f : α → Except ε β} {b : β} :
    x >>= f = .ok b ↔ ∃ a, x = .ok a ∧ f a = .ok b := by
  cases x with
  | error e => exact ⟨fun h => (nomatch h), fun ⟨_, h, _⟩ => (nomatch h)⟩
  | ok a =>
    refine ⟨fun h => ⟨a, rfl, h⟩, ?_⟩
    rintro ⟨_, h, hf⟩
    cases h
    exact hf

theorem bind_error_iff {ε α β : Type} {x : Except ε α} {f : α → Except ε β} {e : ε} :
    x >>= f = .error e ↔ x = .error e ∨ ∃ a, x = .ok a ∧ f a = .error e := by
  cases x with
  | error e' =>
    constructor
    · intro h
      cases h
      exact .inl rfl
    · rintro (h | ⟨_, h, _⟩)
      · cases h
        rfl
      · cases h
  | ok a =>
    constructor
    · exact fun h => .inr ⟨a, rfl, h⟩
    · rintro (h | ⟨_, h, hf⟩)
      · cases h
      · cases h
        exact hf

/-- Where what comes second succeeds or not whatever comes first, the two succeed exactly if each does. -/
theorem exists_bind_iff {ε α β : Type} {x : Except ε α} {f : α → Except ε β} {P : Prop}
    (hf : ∀ a, (∃ b, f a = .ok b) ↔ P) : (∃ b, x >>= f = .ok b) ↔ (∃ a, x = .ok a) ∧ P := by
  constructor
  · rintro ⟨b, h⟩
    obtain ⟨a, ha, hb⟩ := bind_ok_iff.1 h
    exact ⟨⟨a, ha⟩, (hf a).1 ⟨b, hb⟩⟩
  · rintro ⟨⟨a, ha⟩, hP⟩
    obtain ⟨b, hb⟩ := (hf a).2 hP
    exact ⟨b, bind_ok_iff.2 ⟨a, ha, hb⟩⟩

theorem exists_bind_return_iff {ε α β : Type} {x : Except ε α} {f : α → β} :
    (∃ b, (do return f (← x)) = .ok b) ↔ ∃ a, x = .ok a :=
  (exists_bind_iff fun _ => iff_of_true ⟨_, rfl⟩ trivial).trans (and_iff_left trivial)

theorem map_ok_iff {ε α β : Type} {x : Except ε α} {f : α → β} {b : β} :
    x.map f = .ok b ↔ ∃ a, x = .ok a ∧ f a = b := by
  cases x with
  | error e => exact ⟨fun h => (nomatch h), fun ⟨_, h, _⟩ => (nomatch h)⟩
  | ok a => simp [Except.map]

theorem mapError_ok_iff {ε ε' α : Type} {x : Except ε α} {f : ε → ε'} {a : α} : x.mapError f = .ok a ↔ x = .ok a := by
  cases x with
  | error e => exact ⟨fun h => (nomatch h), fun h => (nomatch h)⟩
  | ok b =>
    constructor
    · intro h
      cases h
      rfl
    · intro h
      cases h
      rfl

theorem toOption_eq_some {ε α : Type} {x : Except ε α} {a : α} : x.toOption = some a ↔ x = .ok a := by
  cases x <;> simp [Except.toOption]

theorem foldlM_keeps {ε α β : Type} {f : β → α → Except ε β} {P : β → Prop} {l : List α}
    (step : ∀ b b', ∀ a ∈ l, P b → f b a = .ok b' → P b') {b b' : β} (h : l.foldlM f b = .ok b') (hb : P b) :
    P b' := by
  induction l generalizing b with
  | nil => cases h; exact hb
  | cons a l ih =>
    rw [List.foldlM_cons] at h
    obtain ⟨b₁, h₁, h₂⟩ := bind_ok_iff.1 h
    exact ih (fun b b' x hx => step b b' x (List.mem_cons_of_mem a hx)) h₂ (step b b₁ a List.mem_cons_self hb h₁)

/-- What each step keeps may say which part of the list is behind it. -/
theorem foldlM_keeps_prefix {ε α β : Type} {f : β → α → Except ε β} {P : List α → β → Prop} {l : List α}
    (step : ∀ done a rest b b', l = done ++ a :: rest → P done b → f b a = .ok b' → P (done ++ [a]) b') {b b' : β}
    (h : l.foldlM f b = .ok b') (hb : P [] b) : P l b' := by
  suffices hrest : ∀ rest done b, l = done ++ rest → rest.foldlM f b = .ok b' → P done b → P l b' from
    hrest l [] b rfl h hb
  intro rest
  induction rest with
  | nil =>
    intro done b hl h hb
    cases h
    rwa [hl, List.append_nil]
  | cons a rest ih =>
    intro done b hl h hb
    rw [List.foldlM_cons] at h
    obtain ⟨b₁, h₁, h₂⟩ := bind_ok_iff.1 h
    exact ih (done ++ [a]) b₁ (by rw [hl, List.append_assoc, List.singleton_append]) h₂ (step _ _ _ _ _ hl hb h₁)

/-- A computation fails exactly if one of its steps does, from where the steps before it lead. -/
theorem foldlM_error_iff {ε α β : Type} {f : β → α → Except ε β} {l : List α} {b : β} {e : ε} :
    l.foldlM f b = .error e ↔
      ∃ done a rest b', l = done ++ a :: rest ∧ done.foldlM f b = .ok b' ∧ f b' a = .error e := by
  constructor
  · intro h
    induction l generalizing b with
    | nil => cases h
    | cons a l ih =>
      rw [List.foldlM_cons] at h
      rcases bind_error_iff.1 h with ha | ⟨b₁, ha, hl⟩
      · exact ⟨[], a, l, b, rfl, rfl, ha⟩
      · obtain ⟨done, a', rest, b', rfl, hdone, hfail⟩ := ih hl
        refine ⟨a :: done, a', rest, b', rfl, ?_, hfail⟩
        rw [List.foldlM_cons]
        exact bind_ok_iff.2 ⟨b₁, ha, hdone⟩
  · rintro ⟨done, a, rest, b', rfl, hdone, hfail⟩
    rw [List.foldlM_append, hdone]
    change (a :: rest).foldlM f b' = .error e
    rw [List.foldlM_cons, hfail]
    rfl

/-- If every step succeeds from where the steps before it lead, all of them do, and lead to what follows. -/
theorem foldlM_succeeds {ε α β : Type} {f : β → α → Except ε β} {P Q : β → Prop} {l : List α}
    (step : ∀ b, ∀ a ∈ l, P b → ∃ b', f b a = .ok b' ∧ P b') (hQ : ∀ b, P b → Q b) {b : β} (hb : P b) :
    ∃ b', l.foldlM f b = .ok b' ∧ Q b' := by
  induction l generalizing b with
  | nil => exact ⟨b, rfl, hQ b hb⟩
  | cons a l ih =>
    obtain ⟨b₁, h₁, hb₁⟩ := step b a List.mem_cons_self hb
    obtain ⟨b₂, h₂, hb₂⟩ := ih (fun b x hx => step b x (List.mem_cons_of_mem a hx)) hb₁
    rw [List.foldlM_cons]
    exact ⟨b₂, bind_ok_iff.2 ⟨b₁, h₁, h₂⟩, hb₂⟩

theorem allM_eq_true {ε α : Type} {f : α → Except ε Bool} {l : List α} (h : ∀ a ∈ l, f a = .ok true) :
    l.allM f = .ok true := by
  induction l with
  | nil => rfl
  | cons a l ih =>
    obtain ⟨ha, hl⟩ := List.forall_mem_cons.1 h
    rw [List.allM, ha]
    exact ih hl

/-- A computation over a list gives one result for every item, in order. -/
theorem forall₂_of_mapM {ε α β : Type} {f : α → Except ε β} {as : List α} {bs : List β} (h : as.mapM f = .ok bs) :
    List.Forall₂ (fun a b => f a = .ok b) as bs := by
  induction as generalizing bs with
  | nil =>
    cases h
    exact .nil
  | cons a as ih =>
    rw [List.mapM_cons] at h
    obtain ⟨b, ha, h⟩ := bind_ok_iff.1 h
    obtain ⟨bs', has, h⟩ := bind_ok_iff.1 h
    cases h
    exact .cons ha (ih has)

theorem mapM_of_forall₂ {ε α β : Type} {f : α → Except ε β} {as : List α} {bs : List β}
    (h : List.Forall₂ (fun a b => f a = .ok b) as bs) : as.mapM f = .ok bs := by
  induction h with
  | nil => rfl
  | cons ha _ ih =>
    rw [List.mapM_cons, ha, ih]
    rfl

theorem exists_mapM {ε α β : Type} {f : α → Except ε β} {as : List α} (h : ∀ a ∈ as, ∃ b, f a = .ok b) :
    ∃ bs, as.mapM f = .ok bs := by
  induction as with
  | nil => exact ⟨[], rfl⟩
  | cons a as ih =>
    obtain ⟨⟨b, ha⟩, has⟩ := List.forall_mem_cons.1 h
    obtain ⟨bs, hbs⟩ := ih has
    exact ⟨b :: bs, by rw [List.mapM_cons, ha, hbs]; rfl⟩

theorem exists_of_mapM_error {ε α β : Type} {f : α → Except ε β} {as : List α} {e : ε} (h : as.mapM f = .error e) :
    ∃ a ∈ as, f a = .error e := by
  induction as with
  | nil => cases h
  | cons a as ih =>
    rw [List.mapM_cons] at h
    rcases bind_error_iff.1 h with ha | ⟨b, -, h⟩
    · exact ⟨a, List.mem_cons_self, ha⟩
    · rcases bind_error_iff.1 h with has | ⟨bs, -, h⟩
      · obtain ⟨a', ha', hfail⟩ := ih has
        exact ⟨a', List.mem_cons_of_mem a ha', hfail⟩
      · cases h

theorem forall₂_getElem? {α β : Type} {R : α → β → Prop} {as : List α} {bs : List β} (h : List.Forall₂ R as bs)
    {i : Nat} {b : β} (hb : bs[i]? = some b) : ∃ a, as[i]? = some a ∧ R a b := by
  induction h generalizing i with
  | nil => cases hb
  | cons hab _ ih =>
    cases i with
    | zero =>
      cases hb
      exact ⟨_, rfl, hab⟩
    | succ i => exact ih hb

theorem map_eq_of_forall₂ {α β γ : Type} {R : α → β → Prop} {f : α → γ} {g : β → γ} {as : List α} {bs : List β}
    (h : List.Forall₂ R as bs) (hR : ∀ a b, R a b → g b = f a) : bs.map g = as.map f := by
  induction h with
  | nil => rfl
  | cons hab _ ih => rw [List.map_cons, List.map_cons, hR _ _ hab, ih]

theorem exists_of_mapM {ε α β : Type} {f : α → Except ε β} {as : List α} {bs : List β} (h : as.mapM f = .ok bs) :
    ∀ a ∈ as, ∃ b, f a = .ok b := by
  intro a ha
  obtain ⟨i, hi⟩ := List.getElem?_of_mem ha
  obtain ⟨b, -, hb⟩ := forall₂_getElem? (forall₂_of_mapM h).flip hi
  exact ⟨b, hb⟩

theorem exists_mapM_iff {ε α β : Type} {f : α → Except ε β} {as : List α} :
    (∃ bs, as.mapM f = .ok bs) ↔ ∀ a ∈ as, ∃ b, f a = .ok b :=
  ⟨fun ⟨_, h⟩ => exists_of_mapM h, exists_mapM⟩

/-- What a computation over a list collects comes from the items of the list. -/
theorem exists_of_mem_mapM {ε α β : Type} {f : α → Except ε β} {as : List α} {bs : List β} (h : as.mapM f = .ok bs) :
    ∀ b ∈ bs, ∃ a ∈ as, f a = .ok b := by
  intro b hb
  obtain ⟨i, hi⟩ := List.getElem?_of_mem hb
  obtain ⟨a, ha, hf⟩ := forall₂_getElem? (forall₂_of_mapM h) hi
  exact ⟨a, List.mem_of_getElem? ha, hf⟩

end Dataflow
