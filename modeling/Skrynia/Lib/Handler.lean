/-
Request handlers, over any store.

A handler takes one access to its stores after another. Each access is
atomic (a statement, a transaction, a script), and what it did stays when
a later one throws: a handler ends with a value or an error, and a store
either way.

# The rules

Handlers are equal as functions (`bind_bind`, `return_bind`).
`Ends x s Q R` bounds both ends of a handler: `Q` what it returns and
leaves behind, `R` what it leaves behind when it throws. There is one rule
a construct; for an invariant or a relation to the first store, `Q` and
`R` say the same of the store, and `Q` also what the value promises.
-/
import Skrynia.Lib.Tx

namespace Relational

universe u

/-- A handler over the store `σ`. -/
def Handler (σ ε α : Type u) := σ → Except ε α × σ

namespace Handler

variable {σ ε α β : Type u}

instance : Monad (Handler σ ε) where
  pure a := fun s => (.ok a, s)
  bind x f := fun s =>
    match x s with
    | (.ok a, s') => f a s'
    | (.error e, s') => (.error e, s')

/-- The handler that ends with an error. -/
def throw (e : ε) : Handler σ ε α := fun s => (.error e, s)

/-- Throw `e` unless `c` holds. -/
def require (c : Prop) [Decidable c] (e : ε) : Handler σ ε PUnit.{u + 1} :=
  if c then pure PUnit.unit else throw e

/-- The value, or throw `e` when there is none. -/
def orThrow (o : Option α) (e : ε) : Handler σ ε α :=
  match o with
  | some a => pure a
  | none => throw e

/-- One access to a store. What breaks off throws `down`, before the
store has done its part or after. -/
def access (fault : Option Fault) (down : ε) (f : σ → Except ε (α × σ)) :
    Handler σ ε α := fun s =>
  match fault with
  | some .refused => (.error down, s)
  | some .replyLost =>
      match f s with
      | .ok (_, s') => (.error down, s')
      | .error _ => (.error down, s)
  | none =>
      match f s with
      | .ok (a, s') => (.ok a, s')
      | .error e => (.error e, s)

/-- An access that writes nothing. -/
def read (fault : Option Fault) (down : ε) (f : σ → α) : Handler σ ε α :=
  access fault down fun s => .ok (f s, s)

/-- An access that refuses nothing. -/
def write (fault : Option Fault) (down : ε) (f : σ → σ) :
    Handler σ ε PUnit.{u + 1} :=
  access fault down fun s => .ok (PUnit.unit, f s)

/-- Something that the handler does by itself. -/
def locally (f : σ → σ) : Handler σ ε PUnit.{u + 1} :=
  fun s => (.ok PUnit.unit, f s)

/-- Carry on with `y` if `x` throws. -/
def orElse (x y : Handler σ ε α) : Handler σ ε α := fun s =>
  match x s with
  | (.ok a, s') => (.ok a, s')
  | (.error _, s') => y s'

/-- How a handler ends. -/
def Ends (x : Handler σ ε α) (s : σ) (Q : α → σ → Prop) (R : σ → Prop) :
    Prop :=
  match x s with
  | (.ok a, s') => Q a s'
  | (.error _, s') => R s'

variable {x y : Handler σ ε α} {s : σ} {Q : α → σ → Prop} {R : σ → Prop}

/-- A handler that returns goes on. -/
theorem bind_of_ok {f : α → Handler σ ε β} {s' : σ} {a : α}
    (h : x s = (.ok a, s')) : (x >>= f) s = f a s' := by
  simp only [bind, h]

/-- One that throws does not. -/
theorem bind_of_error {f : α → Handler σ ε β} {s' : σ} {e : ε}
    (h : x s = (.error e, s')) : (x >>= f) s = (.error e, s') := by
  simp only [bind, h]

/-- Returning a value does nothing. -/
theorem return_bind (a : α) (f : α → Handler σ ε β) :
    (pure a : Handler σ ε α) >>= f = f a := rfl

/-- It does not matter how a sequence is grouped. -/
theorem bind_bind {γ : Type u} (x : Handler σ ε α) (f : α → Handler σ ε β)
    (g : β → Handler σ ε γ) :
    (x >>= f) >>= g = x >>= fun a => f a >>= g := by
  funext s
  cases hx : x s with
  | mk answer s' =>
      cases answer with
      | ok a =>
          rw [bind_of_ok hx]
          simp only [bind, hx]
      | error e => rw [bind_of_error hx, bind_of_error (bind_of_error hx)]

/-- A sequence ends as its second part does, or where its first part
throws. -/
theorem Ends.bind {f : α → Handler σ ε β} {Q' : β → σ → Prop}
    (hx : Ends x s Q R) (hf : ∀ a s', Q a s' → Ends (f a) s' Q' R) :
    Ends (x >>= f) s Q' R := by
  unfold Ends at hx ⊢
  show match (match x s with
      | (.ok a, s') => f a s'
      | (.error e, s') => (.error e, s')) with
    | (.ok a, s') => Q' a s'
    | (.error _, s') => R s'
  split at hx
  · exact hf _ _ hx
  · exact hx

/-- A handler that returns has what is promised of its value. -/
theorem Ends.of_ok {a : α} (h : Ends x s Q R) (ha : (x s).1 = .ok a) :
    Q a (x s).2 := by
  unfold Ends at h
  split at h
  · next a' s' hx =>
      rw [hx] at ha ⊢
      obtain rfl := Except.ok.inj ha
      exact h
  · next e s' hx =>
      rw [hx] at ha
      cases ha

/-- Returning leaves the store. -/
theorem Ends.pure {a : α} (h : Q a s) :
    Ends (Pure.pure a : Handler σ ε α) s Q R := h

/-- Less may be promised. -/
theorem Ends.mono {Q' : α → σ → Prop} {R' : σ → Prop} (h : Ends x s Q R)
    (hQ : ∀ a s', Q a s' → Q' a s') (hR : ∀ s', R s' → R' s') :
    Ends x s Q' R' := by
  unfold Ends at h ⊢
  split at h
  · exact hQ _ _ h
  · exact hR _ h

/-- A check that holds goes on. -/
theorem Ends.require {c : Prop} [Decidable c] {e : ε}
    {Q : PUnit.{u + 1} → σ → Prop} (hR : R s) (h : c → Q PUnit.unit s) :
    Ends (require c e) s Q R := by
  unfold Handler.require
  split
  · next hc => exact h hc
  · exact hR

/-- So does a value that is there. -/
theorem Ends.orThrow {o : Option α} {e : ε} (hR : R s)
    (h : ∀ a, o = some a → Q a s) : Ends (orThrow o e) s Q R := by
  cases o with
  | none => exact hR
  | some a => exact h a rfl

/-- An access leaves what it did, also if its reply is lost. -/
theorem Ends.access {fault : Option Fault} {down : ε}
    {f : σ → Except ε (α × σ)} (hR : R s)
    (h : ∀ a s', f s = .ok (a, s') → Q a s' ∧ R s') :
    Ends (access fault down f) s Q R := by
  unfold Ends Handler.access
  cases hf : f s with
  | error e =>
      rcases fault with _ | _ | _
      · exact hR
      · exact hR
      · exact hR
  | ok r =>
      obtain ⟨hQ, hR'⟩ := h r.1 r.2 hf
      rcases fault with _ | _ | _
      · exact hQ
      · exact hR
      · exact hR'

/-- A reading leaves the store. -/
theorem Ends.read {fault : Option Fault} {down : ε} {f : σ → α}
    (hR : R s) (h : Q (f s) s) : Ends (read fault down f) s Q R := by
  apply Ends.access hR
  intro a s' heq
  cases heq
  exact ⟨h, hR⟩

/-- A write leaves what it wrote, also if its reply is lost. -/
theorem Ends.write {fault : Option Fault} {down : ε} {f : σ → σ}
    {Q : PUnit.{u + 1} → σ → Prop} (hR : R s)
    (h : Q PUnit.unit (f s) ∧ R (f s)) : Ends (write fault down f) s Q R := by
  apply Ends.access hR
  intro a s' heq
  cases heq
  exact h

/-- The second handler starts where the first one threw. -/
theorem Ends.orElse (R' : σ → Prop)
    (hx : Ends x s Q R') (hy : ∀ s', R' s' → Ends y s' Q R) :
    Ends (orElse x y) s Q R := by
  unfold Ends at hx ⊢
  unfold Handler.orElse
  split at hx
  · exact hx
  · exact hy _ hx

end Handler

end Relational
