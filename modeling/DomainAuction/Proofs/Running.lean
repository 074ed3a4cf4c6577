/-!
# Running — what a computation that succeeded went through

Readers and sessions are computations over a state that can fail. When one that is put together from
steps succeeds, each step did, and hands over its value and its state to the next. What needs no
state is an `Except`, whose steps compute.
-/

namespace DomainAuction.Running

variable {ε σ α β : Type} {s s' : σ}

/-! ## With a state -/

theorem pure_eq_ok_iff {a b : α} :
    (pure a : EStateM ε σ α) s = .ok b s' ↔ a = b ∧ s = s' := by
  show EStateM.Result.ok a s = .ok b s' ↔ _
  simp

theorem bind_eq_ok_iff {r : EStateM ε σ α} {f : α → EStateM ε σ β} {b : β} :
    (r >>= f) s = .ok b s' ↔ ∃ a t, r s = .ok a t ∧ f a t = .ok b s' := by
  show EStateM.bind r f s = .ok b s' ↔ _
  unfold EStateM.bind
  cases r s <;> simp [and_assoc]

theorem map_eq_ok_iff {r : EStateM ε σ α} {f : α → β} {b : β} :
    (f <$> r) s = .ok b s' ↔ ∃ a, r s = .ok a s' ∧ f a = b := by
  show EStateM.map f r s = .ok b s' ↔ _
  unfold EStateM.map
  cases r s with
  | ok a t => simp [and_assoc, and_comm]
  | error e t => simp

theorem map_eq_error_iff {r : EStateM ε σ α} {f : α → β} {e : ε} :
    (f <$> r) s = .error e s' ↔ r s = .error e s' := by
  show EStateM.map f r s = .error e s' ↔ _
  unfold EStateM.map
  cases r s <;> simp

theorem pure_ne_error {a : α} {e : ε} : (pure a : EStateM ε σ α) s ≠ .error e s' := by
  show EStateM.Result.ok a s ≠ .error e s'
  simp

/-- A chain fails where its first step does, or behind it. -/
theorem bind_eq_error_iff {r : EStateM ε σ α} {f : α → EStateM ε σ β} {e : ε} :
    (r >>= f) s = .error e s'
      ↔ r s = .error e s' ∨ ∃ a t, r s = .ok a t ∧ f a t = .error e s' := by
  show EStateM.bind r f s = .error e s' ↔ _
  unfold EStateM.bind
  cases r s <;> simp [and_assoc]

/-- After a step that succeeded comes the rest. -/
theorem bind_of_ok {r : EStateM ε σ α} {f : α → EStateM ε σ β} {a : α} (h : r s = .ok a s') :
    (r >>= f) s = f a s' := by
  show EStateM.bind r f s = f a s'
  unfold EStateM.bind
  rw [h]

/-- A step that failed is the last one. -/
theorem bind_of_error {r : EStateM ε σ α} {f : α → EStateM ε σ β} {e : ε}
    (h : r s = .error e s') : (r >>= f) s = .error e s' := by
  show EStateM.bind r f s = .error e s'
  unfold EStateM.bind
  rw [h]

/-- Steps that all succeed, and keep what they rely on, give the list of their values. -/
theorem mapM_of_steady {f : α → EStateM ε σ β} {g : α → β} {Steady : σ → Prop} {xs : List α}
    (hstep : ∀ x ∈ xs, ∀ s, Steady s → ∃ s', f x s = .ok (g x) s' ∧ Steady s') (hs : Steady s) :
    ∃ s', xs.mapM f s = .ok (xs.map g) s' ∧ Steady s' := by
  induction xs generalizing s with
  | nil => exact ⟨s, rfl, hs⟩
  | cons x xs ih =>
    obtain ⟨t, hx, ht⟩ := hstep x List.mem_cons_self s hs
    obtain ⟨s', hxs, hs'⟩ := ih (fun y hy => hstep y (List.mem_cons_of_mem x hy)) ht
    refine ⟨s', ?_, hs'⟩
    rw [List.mapM_cons, bind_of_ok hx, bind_of_ok hxs]
    rfl

/-- Steps fail where one of them does, behind steps that all succeeded. -/
theorem mapM_eq_error_iff {f : α → EStateM ε σ β} {xs : List α} {e : ε} :
    xs.mapM f s = .error e s'
      ↔ ∃ done x later ys t, xs = done ++ x :: later ∧ done.mapM f s = .ok ys t
        ∧ f x t = .error e s' := by
  induction xs generalizing s with
  | nil =>
    constructor
    · intro h
      exact absurd h pure_ne_error
    · rintro ⟨done, x, later, ys, t, hxs, -⟩
      simp at hxs
  | cons x xs ih =>
    simp only [List.mapM_cons, bind_eq_error_iff, ih]
    constructor
    · rintro (hx | ⟨y, t, hy, ⟨done, x', later, ys, u, rfl, hdone, hx'⟩ | ⟨ys, u, -, hpure⟩⟩)
      · exact ⟨[], x, xs, [], s, rfl, rfl, hx⟩
      · refine ⟨x :: done, x', later, y :: ys, u, rfl, ?_, hx'⟩
        rw [List.mapM_cons, bind_of_ok hy, bind_of_ok hdone]
        rfl
      · exact absurd hpure pure_ne_error
    · rintro ⟨done, x', later, ys, t, hxs, hdone, hx'⟩
      cases done with
      | nil =>
        obtain ⟨rfl, rfl⟩ := List.cons_eq_cons.1 hxs
        obtain ⟨-, rfl⟩ := pure_eq_ok_iff.1 hdone
        exact .inl hx'
      | cons z done =>
        obtain ⟨rfl, rfl⟩ := List.cons_eq_cons.1 hxs
        rw [List.mapM_cons] at hdone
        obtain ⟨y, u, hy, hrest⟩ := bind_eq_ok_iff.1 hdone
        obtain ⟨ys', v, hdone', hpure⟩ := bind_eq_ok_iff.1 hrest
        obtain ⟨-, rfl⟩ := pure_eq_ok_iff.1 hpure
        exact .inr ⟨y, u, hy, .inl ⟨done, x', later, ys', v, rfl, hdone', hx'⟩⟩

/-- Looking at the state changes nothing. -/
theorem get_bind_apply {f : σ → EStateM ε σ β} : (get >>= f) s = f s s := rfl

theorem throw_ne_ok {e : ε} {a : α} : (throw e : EStateM ε σ α) s ≠ .ok a s' := by
  show EStateM.Result.error e s ≠ .ok a s'
  simp

theorem throw_eq_error_iff {e e' : ε} :
    (throw e : EStateM ε σ α) s = .error e' s' ↔ e = e' ∧ s = s' := by
  show EStateM.Result.error e s = .error e' s' ↔ _
  simp

/-! ## Without a state -/

@[simp] theorem ok_bind (a : α) (f : α → Except ε β) : (Except.ok a >>= f) = f a := rfl

@[simp] theorem error_bind (e : ε) (f : α → Except ε β) : (Except.error e >>= f) = .error e := rfl

@[simp] theorem throw_eq_error (e : ε) : (throw e : Except ε α) = .error e := rfl

end DomainAuction.Running
