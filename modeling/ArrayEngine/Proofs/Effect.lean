import ArrayEngine.Trap
import Mathlib.Order.Defs.Unbundled

/-! What computations with a state keep: relations between the state before and the state after them,
however they end. -/
namespace ArrayEngine

variable {ε δ σ τ α β : Type}

/-- The state that a computation ends in. -/
def endState (x : EStateM ε σ α) (s : σ) : σ :=
  match x s with
  | .ok _ s => s
  | .error _ s => s

/-- A computation keeps a relation between the states before and after it. -/
def Keeping (kept : σ → σ → Prop) (x : EStateM ε σ α) : Prop := ∀ s, kept s (endState x s)

theorem bind_apply (x : EStateM ε σ α) (f : α → EStateM ε σ β) (s : σ) :
    (x >>= f) s = match x s with
      | .ok a s => f a s
      | .error e s => .error e s := rfl

theorem get_bind_apply (f : σ → EStateM ε σ β) (s : σ) : (get >>= f) s = f s s := rfl

theorem modify_bind_apply (change : σ → σ) (f : Unit → EStateM ε σ β) (s : σ) :
    ((modify change : EStateM ε σ Unit) >>= f) s = f () (change s) := rfl

theorem ok_bind_apply (a : α) (f : α → EStateM (Halt ε) σ β) (s : σ) :
    ((monadLift (.ok a : Except Trap α) : EStateM (Halt ε) σ α) >>= f) s = f a s := rfl

theorem tryCatch_apply (x : EStateM ε σ α) (handle : ε → EStateM ε σ α) (s : σ) :
    tryCatch x handle s = match x s with
      | .ok a s => .ok a s
      | .error e s => handle e s := by
  change EStateM.tryCatch x handle s = _
  delta EStateM.tryCatch
  cases x s <;> rfl

theorem bind_eq_ok {x : EStateM ε σ α} {f : α → EStateM ε σ β} {s t : σ} {b : β} :
    (x >>= f) s = .ok b t ↔ ∃ a u, x s = .ok a u ∧ f a u = .ok b t := by
  rw [bind_apply]
  cases x s <;> simp [and_assoc]

theorem lift_eq_ok {x : Except ε α} {s t : σ} {a : α} :
    (monadLift x : EStateM ε σ α) s = .ok a t ↔ x = .ok a ∧ s = t := by
  cases x <;> simp [monadLift, MonadLift.monadLift]

theorem liftTrap_eq_ok {x : Except Trap α} {s t : σ} {a : α} :
    (monadLift x : EStateM (Halt ε) σ α) s = .ok a t ↔ x = .ok a ∧ s = t := by
  cases x <;> simp [monadLift, MonadLift.monadLift]

theorem adaptErrors_eq_ok {x : EStateM (Halt ε) σ α} {g : ε → δ} {s t : σ} {a : α} :
    adaptErrors g x s = .ok a t ↔ x s = .ok a t := by
  rw [adaptErrors]
  cases x s <;> simp

theorem endState_ok {x : EStateM ε σ α} {s t : σ} {a : α} (h : x s = .ok a t) : endState x s = t := by
  rw [endState, h]

theorem endState_error {x : EStateM ε σ α} {s t : σ} {e : ε} (h : x s = .error e t) :
    endState x s = t := by
  rw [endState, h]

namespace Keeping

variable {kept : σ → σ → Prop} {x : EStateM ε σ α} {f : α → EStateM ε σ β}

theorem ok (h : Keeping kept x) {s t : σ} {a : α} (hx : x s = .ok a t) : kept s t :=
  endState_ok hx ▸ h s

theorem error (h : Keeping kept x) {s t : σ} {e : ε} (hx : x s = .error e t) : kept s t :=
  endState_error hx ▸ h s

theorem mono {weaker : σ → σ → Prop} (le : ∀ s t, kept s t → weaker s t) (h : Keeping kept x) :
    Keeping weaker x :=
  fun s => le _ _ (h s)

section Reflexive

variable [Std.Refl kept]

theorem pure (a : α) : Keeping kept (pure a : EStateM ε σ α) := fun s => Std.Refl.refl s

theorem throw (e : ε) : Keeping kept (throw e : EStateM ε σ α) := fun s => Std.Refl.refl s

theorem get : Keeping kept (get : EStateM ε σ σ) := fun s => Std.Refl.refl s

theorem lift (x : Except ε α) : Keeping kept (monadLift x : EStateM ε σ α) := by
  intro s
  cases x <;> exact Std.Refl.refl s

theorem liftTrap (x : Except Trap α) : Keeping kept (monadLift x : EStateM (Halt ε) σ α) := by
  intro s
  cases x <;> exact Std.Refl.refl s

end Reflexive

theorem modify {g : σ → σ} (h : ∀ s, kept s (g s)) : Keeping kept (modify g : EStateM ε σ Unit) := h

theorem bind [IsTrans σ kept] (hx : Keeping kept x) (hf : ∀ a, Keeping kept (f a)) :
    Keeping kept (x >>= f) := by
  intro s
  cases h : x s with
  | ok a t =>
    have hs : endState (x >>= f) s = endState (f a) t := by rw [endState, bind_apply, h, endState]
    rw [hs]
    exact IsTrans.trans _ _ _ (hx.ok h) (hf a t)
  | error e t =>
    have hs : endState (x >>= f) s = t := by rw [endState, bind_apply, h]
    rw [hs]
    exact hx.error h

/-- What comes after looking at the state may depend on what was seen. -/
theorem get_bind {f : σ → EStateM ε σ β} (hf : ∀ s, Keeping kept (f s)) :
    Keeping kept (MonadState.get >>= f) :=
  fun s => hf s s

theorem tryCatch {handle : ε → EStateM ε σ α} [IsTrans σ kept] (hx : Keeping kept x)
    (handled : ∀ e, Keeping kept (handle e)) : Keeping kept (tryCatch x handle) := by
  intro s
  cases h : x s with
  | ok a t =>
    have hs : endState (MonadExcept.tryCatch x handle) s = t := by
      rw [endState, tryCatch_apply, h]
    rw [hs]
    exact hx.ok h
  | error e t =>
    have hs : endState (MonadExcept.tryCatch x handle) s = endState (handle e) t := by
      rw [endState, tryCatch_apply, h, endState]
    rw [hs]
    exact IsTrans.trans _ _ _ (hx.error h) (handled e t)

theorem forM [Std.Refl kept] [IsTrans σ kept] {body : β → EStateM ε σ PUnit} {list : List β}
    (h : ∀ b, Keeping kept (body b)) : Keeping kept (list.forM body) := by
  induction list with
  | nil => exact pure _
  | cons b list ih => exact bind (h b) fun _ => ih

theorem adaptErrors {x : EStateM (Halt ε) σ α} {g : ε → δ} (h : Keeping kept x) :
    Keeping kept (adaptErrors g x) := by
  intro s
  have hs : endState (ArrayEngine.adaptErrors g x) s = endState x s := by
    rw [endState, endState, ArrayEngine.adaptErrors]
    cases x s <;> rfl
  rw [hs]
  exact h s

theorem zoom {get : τ → σ} {put : σ → τ → τ} {x : EStateM ε σ α} {outer : τ → τ → Prop}
    (h : Keeping kept x) (wider : ∀ t s, kept (get t) s → outer t (put s t)) :
    Keeping outer (zoom get put x) := by
  intro t
  have ht : endState (ArrayEngine.zoom get put x) t = put (endState x (get t)) t := by
    rw [endState, endState, ArrayEngine.zoom]
    cases x (get t) <;> rfl
  rw [ht]
  exact wider t _ (h _)

end Keeping

/-- A computation ended in a state, well or with an error. No trap stopped it. -/
def EndsAt : EStateM.Result (Halt ε) σ α → σ → Prop
  | .ok _ s, t => s = t
  | .error (.error _) s, t => s = t
  | .error (.trap _) _, _ => False

theorem EndsAt.of_ok {result : EStateM.Result (Halt ε) σ α} {a : α} {t : σ} (h : result = .ok a t) :
    EndsAt result t := by
  subst h
  rfl

theorem EndsAt.of_error {result : EStateM.Result (Halt ε) σ α} {e : ε} {t : σ}
    (h : result = .error (.error e) t) : EndsAt result t := by
  subst h
  rfl

/-- The end of a computation that comes to this reply. -/
def told (reply : Except ε Unit) (s : σ) : EStateM.Result (Halt ε) σ Unit :=
  match reply with
  | .ok () => .ok () s
  | .error e => .error (.error e) s

theorem endsAt_told {reply : Except ε Unit} {s t : σ} : EndsAt (told reply s) t ↔ s = t := by
  cases reply <;> exact Iff.rfl

theorem told_inj {reply other : Except ε Unit} {s t : σ} (h : told reply s = told other t) : reply = other := by
  cases reply <;> cases other <;> cases h <;> rfl

/-- One computation after another ends where the first one fails, or where the second one ends. -/
theorem EndsAt.bind_cases {x : EStateM (Halt ε) σ α} {f : α → EStateM (Halt ε) σ β} {s t : σ}
    (ends : EndsAt ((x >>= f) s) t) :
    EndsAt (x s) t ∨ ∃ a u, x s = .ok a u ∧ EndsAt (f a u) t := by
  rw [bind_apply] at ends
  cases hx : x s with
  | ok a u =>
    rw [hx] at ends
    exact .inr ⟨a, u, rfl, ends⟩
  | error e u =>
    simp only [hx] at ends
    cases e with
    | trap cause => cases ends
    | error cause => exact .inl ends

/-- A computation keeps a relation between the states before and after it, unless a trap stops it. -/
def Evolving (kept : σ → σ → Prop) (x : EStateM (Halt ε) σ α) : Prop :=
  ∀ s t, EndsAt (x s) t → kept s t

namespace Evolving

variable {kept : σ → σ → Prop} {x : EStateM (Halt ε) σ α} {f : α → EStateM (Halt ε) σ β}

theorem of_keeping (h : Keeping kept x) : Evolving kept x := by
  intro s t ends
  cases hx : x s with
  | ok a u =>
    rw [hx] at ends
    cases ends
    exact h.ok hx
  | error e u =>
    rw [hx] at ends
    cases e with
    | trap cause => cases ends
    | error cause =>
      cases ends
      exact h.error hx

section Reflexive

variable [Std.Refl kept]

theorem pure (a : α) : Evolving kept (pure a : EStateM (Halt ε) σ α) := of_keeping (.pure a)

theorem throw (e : Halt ε) : Evolving kept (throw e : EStateM (Halt ε) σ α) := of_keeping (.throw e)

theorem lift (x : Except (Halt ε) α) : Evolving kept (monadLift x : EStateM (Halt ε) σ α) :=
  of_keeping (.lift x)

theorem liftTrap (x : Except Trap α) : Evolving kept (monadLift x : EStateM (Halt ε) σ α) :=
  of_keeping (.liftTrap x)

end Reflexive

theorem bind [IsTrans σ kept] (hx : Evolving kept x) (hf : ∀ a, Evolving kept (f a)) :
    Evolving kept (x >>= f) := by
  intro s t ends
  have hxs := hx s
  rw [bind_apply] at ends
  cases h : x s with
  | ok a u =>
    rw [h] at ends hxs
    exact IsTrans.trans _ _ _ (hxs u rfl) (hf a u t ends)
  | error e u =>
    rw [h] at ends hxs
    cases e with
    | trap cause => cases ends
    | error cause => exact hxs t ends

theorem get_bind {f : σ → EStateM (Halt ε) σ β} (hf : ∀ s, Evolving kept (f s)) :
    Evolving kept (MonadState.get >>= f) :=
  fun s t ends => hf s s t ends

end Evolving

end ArrayEngine
