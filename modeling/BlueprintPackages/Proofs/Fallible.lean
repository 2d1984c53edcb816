import Mathlib.Data.List.Forall2

/-!
# Computations that can fail

What a sequence of fallible steps comes to, said once for all readers and builders. A step and the
rest succeed when both do (`bind_eq_ok_iff`) and fail with the first failure
(`bind_eq_error_iff`). A list that is worked off from left to right succeeds item by item
(`mapM_eq_ok_iff`), and otherwise fails as the first item that fails, whatever stands behind it
(`mapM_eq_error_iff`).

A sequence of checks fails with the `First` fault: every step has its own, and one that is found
later counts only where all earlier steps found none (`Reports.bind`).

Two computations `Agree` if both fail with one error or both succeed, with results that are related.
That goes through steps and lists (`Agree.bind`, `Agree.mapM`), so that two runs are compared step
by step.
-/

namespace BlueprintPackages.Fallible

universe u

variable {ε α β : Type u}

/-! ## One step and the rest -/

theorem bind_eq_ok_iff {x : Except ε α} {f : α → Except ε β} {b : β} :
    (x >>= f) = .ok b ↔ ∃ a, x = .ok a ∧ f a = .ok b := by
  cases x with
  | error e => simp [bind, Except.bind]
  | ok a => simp [bind, Except.bind]

theorem bind_eq_error_iff {x : Except ε α} {f : α → Except ε β} {e : ε} :
    (x >>= f) = .error e ↔ x = .error e ∨ ∃ a, x = .ok a ∧ f a = .error e := by
  cases x with
  | error e' => simp [bind, Except.bind]
  | ok a => simp [bind, Except.bind]

theorem map_eq_ok_iff {x : Except ε α} {f : α → β} {b : β} :
    x.map f = .ok b ↔ ∃ a, x = .ok a ∧ f a = b := by
  cases x with
  | error e => simp [Except.map]
  | ok a => simp [Except.map]

theorem map_eq_error_iff {x : Except ε α} {f : α → β} {e : ε} :
    x.map f = .error e ↔ x = .error e := by
  cases x with
  | error e' => simp [Except.map]
  | ok a => simp [Except.map]

/-- What does not fail with any error succeeds. -/
theorem exists_ok_of_forall_ne_error {x : Except ε α} (h : ∀ e, x ≠ .error e) : ∃ a, x = .ok a := by
  cases x with
  | error e => exact absurd rfl (h e)
  | ok a => exact ⟨a, rfl⟩

theorem exists_ok_of_isOk {x : Except ε α} (h : x.isOk = true) : ∃ a, x = .ok a := by
  cases x with
  | error e => exact nomatch h
  | ok a => exact ⟨a, rfl⟩

/-! ## Lists worked off from left to right -/

/-- Items that are each related to something are related to a list, one by one. -/
theorem exists_forall₂_iff {R : α → β → Prop} {xs : List α} :
    (∃ ys, List.Forall₂ R xs ys) ↔ ∀ x ∈ xs, ∃ y, R x y := by
  induction xs with
  | nil => simp
  | cons x xs ih =>
      rw [List.forall_mem_cons, ← ih]
      constructor
      · rintro ⟨_, hall⟩
        cases hall with
        | cons hx hxs => exact ⟨⟨_, hx⟩, _, hxs⟩
      · rintro ⟨⟨y, hx⟩, ys, hxs⟩
        exact ⟨y :: ys, .cons hx hxs⟩

theorem mapM_eq_ok_iff {f : α → Except ε β} {xs : List α} {ys : List β} :
    xs.mapM f = .ok ys ↔ List.Forall₂ (fun x y => f x = .ok y) xs ys := by
  induction xs generalizing ys with
  | nil =>
      rw [List.mapM_nil, List.forall₂_nil_left_iff]
      exact ⟨fun h => (Except.ok.inj h).symm, fun h => h ▸ rfl⟩
  | cons x xs ih =>
      rw [List.mapM_cons, bind_eq_ok_iff, List.forall₂_cons_left_iff]
      constructor
      · rintro ⟨y, hy, hrest⟩
        obtain ⟨zs, hzs, heq⟩ := bind_eq_ok_iff.mp hrest
        exact ⟨y, zs, hy, ih.mp hzs, (Except.ok.inj heq).symm⟩
      · rintro ⟨y, zs, hy, hzs, rfl⟩
        exact ⟨y, hy, bind_eq_ok_iff.mpr ⟨zs, ih.mpr hzs, rfl⟩⟩

theorem mapM_eq_error_iff {f : α → Except ε β} {xs : List α} {e : ε} :
    xs.mapM f = .error e ↔
      ∃ before x after, xs = before ++ x :: after ∧ (∀ b ∈ before, ∃ y, f b = .ok y) ∧
        f x = .error e := by
  induction xs with
  | nil =>
      constructor
      · exact fun h => nomatch h
      · rintro ⟨before, x, after, h, -, -⟩
        simp at h
  | cons x xs ih =>
      rw [List.mapM_cons, bind_eq_error_iff]
      constructor
      · rintro (hx | ⟨y, hy, hrest⟩)
        · exact ⟨[], x, xs, rfl, fun b hb => absurd hb List.not_mem_nil, hx⟩
        · obtain hxs | ⟨zs, -, hpure⟩ := bind_eq_error_iff.mp hrest
          · obtain ⟨before, x', after, rfl, hbefore, hx'⟩ := ih.mp hxs
            refine ⟨x :: before, x', after, rfl, ?_, hx'⟩
            intro b hb
            rcases List.mem_cons.mp hb with rfl | hb
            · exact ⟨y, hy⟩
            · exact hbefore b hb
          · exact nomatch hpure
      · rintro ⟨before, x', after, hsplit, hbefore, hx'⟩
        cases before with
        | nil =>
            obtain ⟨rfl, rfl⟩ := List.cons.inj hsplit
            exact .inl hx'
        | cons b before =>
            obtain ⟨rfl, rfl⟩ := List.cons.inj hsplit
            obtain ⟨y, hy⟩ := hbefore x List.mem_cons_self
            have hrest : (before ++ x' :: after).mapM f = .error e :=
              ih.mpr ⟨before, x', after, rfl,
                fun b hb => hbefore b (List.mem_cons_of_mem _ hb), hx'⟩
            exact .inr ⟨y, hy, bind_eq_error_iff.mpr (.inl hrest)⟩

/-- A list whose changed items come to what the items came to, changed, comes to what it came to
with every result changed. -/
theorem mapM_map_eq_of_forall {f f' : α → Except ε β} {change : α → α} {g : β → β} {xs : List α}
    (h : ∀ x ∈ xs, f' (change x) = (f x).map g) :
    (xs.map change).mapM f' = (xs.mapM f).map (List.map g) := by
  induction xs with
  | nil => rfl
  | cons x xs ih =>
      rw [List.forall_mem_cons] at h
      rw [List.map_cons, List.mapM_cons, List.mapM_cons, h.1, ih h.2]
      cases f x with
      | error e => rfl
      | ok y => cases xs.mapM f <;> rfl

/-- What a list comes to depends only on what its items come to, one by one. -/
theorem mapM_eq_of_map_eq {f : α → Except ε β} {xs ys : List α} (h : xs.map f = ys.map f) :
    xs.mapM f = ys.mapM f := by
  have houtcomes : ∀ zs : List α, zs.mapM f = (zs.map f).mapM id := fun zs => by
    rw [List.mapM_map]
    rfl
  rw [houtcomes, houtcomes, h]

/-- Items that come to something that counts for nothing may be left out. -/
theorem map_mapM_filter {γ : Type u} {f : α → Except ε β} {keep : α → Bool} {nothing : β}
    {xs : List α} (h : ∀ x ∈ xs, keep x = false → f x = .ok nothing) {combine : List β → γ}
    (hcombine : ∀ before after, combine (before ++ nothing :: after) = combine (before ++ after)) :
    ((xs.filter keep).mapM f).map combine = (xs.mapM f).map combine := by
  -- an item that is kept goes into `combine`, so the induction is for every such function
  induction xs generalizing combine with
  | nil => rfl
  | cons x xs ih =>
      rw [List.forall_mem_cons] at h
      have hmap : ∀ (y : β) (rest : Except ε (List β)),
          (rest >>= fun ys => pure (y :: ys)).map combine = rest.map fun ys => combine (y :: ys) :=
        fun y rest => by cases rest <;> rfl
      cases hkeep : keep x with
      | false =>
          rw [List.filter_cons_of_neg (by simp [hkeep]), ih h.2 hcombine, List.mapM_cons,
            h.1 hkeep]
          show _ = (xs.mapM f >>= fun ys => pure (nothing :: ys)).map combine
          rw [hmap]
          exact congrArg (fun combine => (xs.mapM f).map combine)
            (funext fun ys => (hcombine [] ys).symm)
      | true =>
          rw [List.filter_cons_of_pos hkeep, List.mapM_cons, List.mapM_cons]
          cases f x with
          | error e => rfl
          | ok y =>
              show ((xs.filter keep).mapM f >>= fun ys => pure (y :: ys)).map combine =
                (xs.mapM f >>= fun ys => pure (y :: ys)).map combine
              rw [hmap, hmap]
              exact ih h.2 fun before after => hcombine (y :: before) after

/-! ## The same by index -/

theorem mapM_eq_ok_iff_getElem? {f : α → Except ε β} {xs : List α} {ys : List β} :
    xs.mapM f = .ok ys ↔
      ys.length = xs.length ∧
        ∀ (i : Nat) (x : α), xs[i]? = some x → ∃ y, ys[i]? = some y ∧ f x = .ok y := by
  rw [mapM_eq_ok_iff, List.forall₂_iff_get]
  constructor
  · rintro ⟨hlength, hall⟩
    refine ⟨hlength.symm, ?_⟩
    intro i x hx
    obtain ⟨hi, rfl⟩ := List.getElem?_eq_some_iff.mp hx
    exact ⟨ys[i], List.getElem?_eq_getElem (hlength ▸ hi), hall i hi (hlength ▸ hi)⟩
  · rintro ⟨hlength, hall⟩
    refine ⟨hlength.symm, ?_⟩
    intro i hi hi'
    obtain ⟨y, hy, hfy⟩ := hall i xs[i] (List.getElem?_eq_getElem hi)
    obtain ⟨_, rfl⟩ := List.getElem?_eq_some_iff.mp hy
    exact hfy

theorem mapM_eq_error_iff_getElem? {f : α → Except ε β} {xs : List α} {e : ε} :
    xs.mapM f = .error e ↔
      ∃ (i : Nat) (x : α), xs[i]? = some x ∧ f x = .error e ∧
        ∀ (j : Nat) (b : α), j < i → xs[j]? = some b → ∃ y, f b = .ok y := by
  rw [mapM_eq_error_iff]
  constructor
  · rintro ⟨before, x, after, rfl, hbefore, hx⟩
    refine ⟨before.length, x, by simp, hx, ?_⟩
    intro j b hj hb
    rw [List.getElem?_append_left hj] at hb
    exact hbefore b (List.mem_of_getElem? hb)
  · rintro ⟨i, x, hx, hfx, hearlier⟩
    obtain ⟨hi, rfl⟩ := List.getElem?_eq_some_iff.mp hx
    refine ⟨xs.take i, xs[i], xs.drop (i + 1), ?_, ?_, hfx⟩
    · rw [List.getElem_cons_drop, List.take_append_drop]
    · intro b hb
      obtain ⟨j, hj, rfl⟩ := List.mem_take_iff_getElem.mp hb
      exact hearlier j _ (by omega) (List.getElem?_eq_getElem (by omega))

/-! ## The first fault -/

/-- One of the faults is found, and none that stands before it. -/
inductive First : List (ε → Prop) → ε → Prop
  | here {fault : ε → Prop} {rest : List (ε → Prop)} {e : ε} (h : fault e) :
      First (fault :: rest) e
  | later {fault : ε → Prop} {rest : List (ε → Prop)} {e : ε} (hnone : ∀ e', ¬ fault e')
      (h : First rest e) : First (fault :: rest) e

/-- The computation fails just as the first of the faults says. -/
def Reports (x : Except ε α) (faults : List (ε → Prop)) : Prop :=
  ∀ e, x = .error e ↔ First faults e

theorem Reports.ok (a : α) : Reports (.ok a : Except ε α) [] := by
  intro e
  constructor
  · exact fun h => nomatch h
  · exact fun h => nomatch h

/-- A step with a fault of its own stands before all that comes after it. -/
theorem Reports.bind {x : Except ε α} {f : α → Except ε β} {fault : ε → Prop}
    {rest : List (ε → Prop)} (hstep : ∀ e, x = .error e ↔ fault e)
    (hrest : ∀ a, x = .ok a → Reports (f a) rest) : Reports (x >>= f) (fault :: rest) := by
  intro e
  rw [bind_eq_error_iff]
  constructor
  · rintro (hx | ⟨a, hx, hf⟩)
    · exact .here ((hstep e).mp hx)
    · have hnone : ∀ e', ¬ fault e' := fun e' hfault => by
        rw [(hstep e').mpr hfault] at hx
        exact nomatch hx
      exact .later hnone ((hrest a hx e).mp hf)
  · intro hfirst
    cases hfirst with
    | here hfault => exact .inl ((hstep e).mpr hfault)
    | later hnone hfirst =>
        obtain ⟨a, hx⟩ := exists_ok_of_forall_ne_error fun e' hx => hnone e' ((hstep e').mp hx)
        exact .inr ⟨a, hx, (hrest a hx e).mpr hfirst⟩

/-! ## Two runs -/

/-- Both fail with one error, or both succeed with related results. -/
inductive Agree (R : α → β → Prop) : Except ε α → Except ε β → Prop
  | error (e : ε) : Agree R (.error e) (.error e)
  | ok {a : α} {b : β} (h : R a b) : Agree R (.ok a) (.ok b)

namespace Agree

variable {γ δ : Type u} {R : α → β → Prop} {S : γ → δ → Prop} {x : Except ε α} {y : Except ε β}

theorem of_eq {R : α → α → Prop} {x y : Except ε α} (hxy : x = y) (h : ∀ a, R a a) :
    Agree R x y := by
  subst hxy
  cases x with
  | error e => exact .error e
  | ok a => exact .ok (h a)

theorem eq_error {e : ε} (h : Agree R (.error e) y) : y = .error e := by
  cases h
  rfl

theorem exists_ok {a : α} (h : Agree R (.ok a) y) : ∃ b, y = .ok b ∧ R a b := by
  cases h with
  | ok hab => exact ⟨_, rfl, hab⟩

theorem bind {f : α → Except ε γ} {g : β → Except ε δ} (h : Agree R x y)
    (hfg : ∀ a b, R a b → Agree S (f a) (g b)) : Agree S (x >>= f) (y >>= g) := by
  cases h with
  | error e => exact .error e
  | ok hab => exact hfg _ _ hab

/-- Both runs begin with the same step. -/
theorem bind_same {x : Except ε α} {f : α → Except ε γ} {g : α → Except ε δ}
    (hfg : ∀ a, Agree S (f a) (g a)) : Agree S (x >>= f) (x >>= g) := by
  cases x with
  | error e => exact .error e
  | ok a => exact hfg a

/-- Lists whose items agree one by one agree as a whole. -/
theorem mapM {P : α → β → Prop} {f : α → Except ε γ} {g : β → Except ε δ} {xs : List α}
    {ys : List β} (h : List.Forall₂ P xs ys) (hfg : ∀ a b, P a b → Agree S (f a) (g b)) :
    Agree (List.Forall₂ S) (xs.mapM f) (ys.mapM g) := by
  induction h with
  | nil => exact .ok .nil
  | cons hab _ ih =>
      rw [List.mapM_cons, List.mapM_cons]
      exact (hfg _ _ hab).bind fun c d hcd => ih.bind fun cs ds hall => .ok (.cons hcd hall)

end Agree

end BlueprintPackages.Fallible
