import Mathlib

/-! # Stateful code that throws

An `EStateM` computation keeps the state it had reached when it throws, as C++
code without a transaction does. `Ensures` is its weakest precondition with one
condition for the normal end and one for the exceptional one. -/
namespace KatanaRecomp.Lib
variable {ε σ α β : Type}

/-- Started in `s`, the computation ends with `post`, or throws with `fail`. -/
def Ensures (x : EStateM ε σ α) (s : σ) (post : α → σ → Prop) (fail : ε → σ → Prop) : Prop :=
  match x s with
  | .ok a t => post a t
  | .error e t => fail e t

/-- A pure check inside stateful code. -/
def ofChecked (x : Except ε α) : EStateM ε σ α :=
  match x with
  | .ok a => pure a
  | .error e => throw e

theorem bind_eq_ok {x : Except ε α} {f : α → Except ε β} {b : β}
    (h : (x >>= f) = .ok b) : ∃ a, x = .ok a ∧ f a = .ok b := by
  cases x with
  | error e => cases h
  | ok a => exact ⟨a, rfl, h⟩

theorem bind_eq_error {x : Except ε α} {f : α → Except ε β} {e : ε}
    (h : (x >>= f) = .error e) : x = .error e ∨ ∃ a, x = .ok a ∧ f a = .error e := by
  cases x with
  | error e' =>
    cases h
    exact .inl rfl
  | ok a => exact .inr ⟨a, rfl, h⟩

/-- A loop of checks that returns has passed each of them. -/
theorem mapM_eq_ok {f : α → Except ε β} {l : List α} {l' : List β} (h : l.mapM f = .ok l') :
    List.Forall₂ (fun a b => f a = .ok b) l l' := by
  induction l generalizing l' with
  | nil =>
    cases h
    exact .nil
  | cons a rest ih =>
    rw [List.mapM_cons] at h
    obtain ⟨b, hb, h⟩ := bind_eq_ok h
    obtain ⟨others, hothers, h⟩ := bind_eq_ok h
    cases h
    exact .cons hb (ih hothers)

namespace Ensures
variable {s : σ} {post post' : α → σ → Prop} {fail fail' : ε → σ → Prop}

theorem mono {x : EStateM ε σ α} (h : Ensures x s post fail) (hpost : ∀ a t, post a t → post' a t)
    (hfail : ∀ e t, fail e t → fail' e t) : Ensures x s post' fail' := by
  unfold Ensures at h ⊢
  split
  · rename_i a t heq
    rw [heq] at h
    exact hpost a t h
  · rename_i e t heq
    rw [heq] at h
    exact hfail e t h

theorem bind {x : EStateM ε σ α} {f : α → EStateM ε σ β} {post' : β → σ → Prop}
    (h : Ensures x s (fun a t => Ensures (f a) t post' fail) fail) :
    Ensures (x >>= f) s post' fail := by
  have hbind : (x >>= f) s = match x s with
    | .ok a t => f a t
    | .error e t => .error e t := by
    change EStateM.bind x f s = _
    unfold EStateM.bind
    cases x s <;> rfl
  unfold Ensures at h ⊢
  rw [hbind]
  cases hx : x s with
  | ok a t =>
    rw [hx] at h
    exact h
  | error e t =>
    rw [hx] at h
    exact h

theorem pure {a : α} (h : post a s) : Ensures (Pure.pure a : EStateM ε σ α) s post fail := h

theorem get {post : σ → σ → Prop} (h : post s s) :
    Ensures (MonadState.get : EStateM ε σ σ) s post fail := h

theorem update {f : σ → σ} {post : Unit → σ → Prop} (h : post () (f s)) :
    Ensures (modify f : EStateM ε σ Unit) s post fail := h

theorem throw {e : ε} (h : fail e s) : Ensures (MonadExcept.throw e : EStateM ε σ α) s post fail :=
  h

theorem ofChecked {x : Except ε α} (hok : ∀ a, x = .ok a → post a s)
    (herror : ∀ e, x = .error e → fail e s) : Ensures (Lib.ofChecked x) s post fail := by
  cases x with
  | ok a => exact hok a rfl
  | error e => exact herror e rfl

theorem ite {c : Prop} [Decidable c] {x y : EStateM ε σ α} (hx : c → Ensures x s post fail)
    (hy : ¬ c → Ensures y s post fail) : Ensures (if c then x else y) s post fail := by
  split
  · exact hx ‹_›
  · exact hy ‹_›

/-- A handler takes over in the state the throw left. -/
theorem tryCatch {x : EStateM ε σ α} {handler : ε → EStateM ε σ α}
    (h : Ensures x s post (fun e t => Ensures (handler e) t post fail)) :
    Ensures (MonadExcept.tryCatch x handler) s post fail := by
  have hcatch : (MonadExcept.tryCatch x handler) s = match x s with
    | .ok a t => .ok a t
    | .error e t => handler e t := by
    change EStateM.tryCatch x handler s = _
    unfold EStateM.tryCatch
    cases x s <;> rfl
  unfold Ensures at h ⊢
  rw [hcatch]
  cases hx : x s with
  | ok a t =>
    rw [hx] at h
    exact h
  | error e t =>
    rw [hx] at h
    exact h

/-- A loop over a list, with an invariant on what is left of it. -/
theorem forM {f : α → EStateM ε σ PUnit} (inv : List α → σ → Prop)
    (hstep : ∀ a rest t, inv (a :: rest) t → Ensures (f a) t (fun _ => inv rest) fail)
    (l : List α) (h : inv l s) : Ensures (l.forM f) s (fun _ => inv []) fail := by
  induction l generalizing s with
  | nil => exact pure h
  | cons a rest ih =>
    change Ensures (f a >>= fun _ => rest.forM f) s _ fail
    exact bind ((hstep a rest s h).mono (fun _ t ht => ih ht) fun _ _ he => he)

/-- What a computation that ended normally ensures. -/
theorem of_ok {x : EStateM ε σ α} {a : α} {t : σ} (h : Ensures x s post fail)
    (hx : x s = .ok a t) : post a t := by
  unfold Ensures at h
  rwa [hx] at h

theorem of_error {x : EStateM ε σ α} {e : ε} {t : σ} (h : Ensures x s post fail)
    (hx : x s = .error e t) : fail e t := by
  unfold Ensures at h
  rwa [hx] at h

end Ensures
end KatanaRecomp.Lib
