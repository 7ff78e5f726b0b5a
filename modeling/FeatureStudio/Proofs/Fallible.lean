/-
  FeatureStudio.Proofs.Fallible: what may fail, one thing after another.

  A builder, a check and a change of a disk all give a result or an error, and go on from the result
  of what was done before.  Here is when all of it succeeds, and which error comes out otherwise.

  Main statements:
    * `bind_eq_ok_iff`, `map_eq_ok_iff`: what has succeeded if the whole has.
    * `mapM_eq_ok_iff`, `mapM_eq_error_iff`: things that are made one by one.
    * `exists_mem_zip`: a thing and what was made of it.
-/
import Mathlib.Data.List.Forall2

namespace FeatureStudio

variable {ε α β : Type} {f : α → Except ε β}

/-! ## §1. One thing after another. -/

theorem bind_eq_ok_iff {x : Except ε α} {b : β} :
    (x >>= f) = .ok b ↔ ∃ a, x = .ok a ∧ f a = .ok b := by
  cases x <;> simp [bind, Except.bind]

theorem map_eq_ok_iff {g : α → β} {x : Except ε α} {b : β} :
    x.map g = .ok b ↔ ∃ a, x = .ok a ∧ g a = b := by
  cases x <;> simp [Except.map]

theorem map_eq_error_iff {g : α → β} {x : Except ε α} {error : ε} :
    x.map g = .error error ↔ x = .error error := by
  cases x <;> simp [Except.map]

theorem mapError_eq_ok_iff {ε' : Type} {g : ε → ε'} {x : Except ε α} {a : α} :
    x.mapError g = .ok a ↔ x = .ok a := by
  cases x <;> simp [Except.mapError]

/-! ## §2. Making things one by one. -/

/-- Everything is made exactly when every single thing is. -/
theorem mapM_eq_ok_iff : ∀ (as : List α) (bs : List β),
    as.mapM f = .ok bs ↔ List.Forall₂ (fun a b => f a = .ok b) as bs
  | [], bs => by
      rw [List.forall₂_nil_left_iff, List.mapM_nil]
      exact ⟨fun h => by cases h; rfl, fun h => by cases h; rfl⟩
  | a :: as, bs => by
      rw [List.forall₂_cons_left_iff, List.mapM_cons, bind_eq_ok_iff]
      constructor
      · rintro ⟨b, hb, h⟩
        obtain ⟨bs', hbs, h⟩ := bind_eq_ok_iff.mp h
        cases h
        exact ⟨b, bs', hb, (mapM_eq_ok_iff as bs').mp hbs, rfl⟩
      · rintro ⟨b, bs', hb, hbs, rfl⟩
        exact ⟨b, hb, bind_eq_ok_iff.mpr ⟨bs', (mapM_eq_ok_iff as bs').mpr hbs, rfl⟩⟩

/-- The first thing that cannot be made is the one that is reported. -/
theorem mapM_eq_error_iff {error : ε} : ∀ as : List α,
    as.mapM f = .error error ↔
      ∃ before a after, as = before ++ a :: after ∧ f a = .error error ∧
        ∀ a' ∈ before, ∃ b, f a' = .ok b
  | [] => by simp [pure, Except.pure]
  | a :: as => by
      rw [List.mapM_cons]
      -- the first thing is itself the one, or it is one of those in front of it
      cases hfirst : f a with
      | error error' =>
          constructor
          · intro h
            cases h
            exact ⟨[], a, as, rfl, hfirst, fun _ h => absurd h List.not_mem_nil⟩
          · rintro ⟨before, a', after, heq, herror, hbefore⟩
            cases before with
            | nil =>
                cases heq
                cases hfirst.symm.trans herror
                rfl
            | cons a'' before =>
                cases heq
                obtain ⟨b, hb⟩ := hbefore a List.mem_cons_self
                rw [hfirst] at hb
                cases hb
      | ok b =>
          have hrest : (do let b' ← Except.ok b; let bs ← as.mapM f; pure (b' :: bs))
              = .error error ↔ as.mapM f = .error error := by
            cases as.mapM f <;> simp [bind, Except.bind, pure, Except.pure]
          rw [hrest, mapM_eq_error_iff as]
          constructor
          · rintro ⟨before, a', after, rfl, herror, hbefore⟩
            refine ⟨a :: before, a', after, rfl, herror, fun a'' h => ?_⟩
            rcases List.mem_cons.mp h with rfl | h
            · exact ⟨b, hfirst⟩
            · exact hbefore a'' h
          · rintro ⟨before, a', after, heq, herror, hbefore⟩
            cases before with
            | nil =>
                cases heq
                rw [hfirst] at herror
                cases herror
            | cons a'' before =>
                cases heq
                exact ⟨before, a', after, rfl, herror,
                  fun a'' h => hbefore a'' (List.mem_cons_of_mem _ h)⟩

theorem mapM_ok : ∀ as : List α, (∀ a ∈ as, ∃ b, f a = .ok b) → ∃ bs, as.mapM f = .ok bs
  | [], _ => ⟨[], rfl⟩
  | a :: as, h => by
      obtain ⟨b, hb⟩ := h a List.mem_cons_self
      obtain ⟨bs, hbs⟩ := mapM_ok as fun a' ha' => h a' (List.mem_cons_of_mem _ ha')
      refine ⟨b :: bs, ?_⟩
      rw [List.mapM_cons, hb, hbs]
      rfl

/-! ## §3. Partners. -/

/-- Whatever there is on one side has its partner on the other. -/
theorem exists_mem_zip {R : α → β → Prop} {as : List α} {bs : List β}
    (h : List.Forall₂ R as bs) {a : α} (ha : a ∈ as) : ∃ b, (a, b) ∈ as.zip bs ∧ R a b := by
  induction h with
  | nil => cases ha
  | @cons a' b _ _ hab _ ih =>
      rcases List.mem_cons.mp ha with rfl | ha
      · exact ⟨b, List.mem_cons_self, hab⟩
      · obtain ⟨b', hb', hab'⟩ := ih ha
        exact ⟨b', List.mem_cons_of_mem _ hb', hab'⟩

theorem exists_of_mem_right {R : α → β → Prop} {as : List α} {bs : List β}
    (h : List.Forall₂ R as bs) {b : β} (hb : b ∈ bs) : ∃ a ∈ as, R a b := by
  obtain ⟨a, ha, hab⟩ := exists_mem_zip h.flip hb
  exact ⟨a, (List.of_mem_zip ha).2, hab⟩

end FeatureStudio
