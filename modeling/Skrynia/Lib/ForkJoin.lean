/-
Programs that fork and join, and what is left when they have ended.

A program does one operation after the other and goes on with the answers;
`both` starts two programs and goes on when both have ended. An operation
may fail, with its effect or without. What waits for a failed operation
never goes on, what runs beside it does: a rejected promise does not stop
the others. Between two operations of a program anything may happen that
others do.

# What a program leaves

`Leads F p Q` says that `p`, started where `F` is known, does only what it
is permitted to and can only end where `Q` holds. What is known between
two operations has to outlive whatever others may do (`Stable`). The facts
of operations are collected in sequence (`leads_andThen`) and side by side
(`leads_all`). It is a statement about the program alone. `At s p Q` is
what a running program is owed in a state; every step of its own and every
step of others keeps it (`At.advance`, `At.others`).
-/
import Mathlib.Data.List.Basic
import Mathlib.Tactic.Common

namespace ForkJoin

universe u v w

/-- A program: it calls, it forks, or it has come to an end. -/
inductive Prog (O : Type u) (A : O → Type v) where
  | done
  | failed
  | call (o : O) (next : A o → Prog O A)
  | both (left right next : Prog O A)

/-- How an operation breaks off. -/
inductive Break where
  /-- Before its effect. -/
  | refused
  /-- After it. -/
  | replyLost
deriving DecidableEq

section

variable {O : Type u} {A : O → Type v}

namespace Prog

/-- The program has ended well. -/
def ended : Prog O A → Bool
  | done => true
  | _ => false

/-- It is then `done`. -/
theorem ended_iff {p : Prog O A} : p.ended = true ↔ p = done := by
  constructor
  · intro h
    cases p with
    | done => rfl
    | failed => cases h
    | call => cases h
    | both => cases h
  · intro h
    rw [h]
    rfl

/-- One operation, whatever it answers. -/
def perform (o : O) : Prog O A := call o fun _ => done

/-- One program and then another. -/
def andThen : Prog O A → Prog O A → Prog O A
  | done, k => k
  | failed, _ => failed
  | call o next, k => call o fun a => (next a).andThen k
  | both p q next, k => both p q (next.andThen k)

/-- The programs one after the other. -/
def inTurn : List (Prog O A) → Prog O A
  | [] => done
  | p :: ps => p.andThen (inTurn ps)

/-- All of the programs side by side. -/
def all : List (Prog O A) → Prog O A
  | [] => done
  | p :: ps => both p (all ps) done

/-- Every operation of the program satisfies `P`. -/
def Only (P : O → Prop) : Prog O A → Prop
  | done => True
  | failed => True
  | call o next => P o ∧ ∀ a, (next a).Only P
  | both p q next => p.Only P ∧ q.Only P ∧ next.Only P

end Prog

variable {σ : Type w} (perform : σ → (o : O) → σ × A o)

/-- The next step of a program, in the branch that the path leads to. -/
def advance (s : σ) : Prog O A → List Bool → Option Break → σ × Prog O A
  | .done, _, _ => (s, .done)
  | .failed, _, _ => (s, .failed)
  | .call o next, _, none => ((perform s o).1, next (perform s o).2)
  | .call _ _, _, some .refused => (s, .failed)
  | .call o _, _, some .replyLost => ((perform s o).1, .failed)
  | .both p q next, path, broken =>
      if p.ended && q.ended then (s, next)
      else
        match path with
        | [] => (s, .both p q next)
        | true :: path =>
            ((advance s p path broken).1, .both (advance s p path broken).2 q next)
        | false :: path =>
            ((advance s q path broken).1, .both p (advance s q path broken).2 next)

end

-- ================================================================== rules

section Rules

variable {O : Type u} {A : O → Type v} {σ : Type w}
  -- What may happen, what the program is permitted, what operations do.
  {May : σ → σ → Prop} {Ok : σ → O → Prop} {Does : σ → (o : O) → A o → σ → Prop}
  {F G P Q : σ → Prop} {p q k : Prog O A} {s s' : σ}

/-- Nothing that may happen takes the fact away. -/
def Stable (May : σ → σ → Prop) (F : σ → Prop) : Prop :=
  ∀ s s', May s s' → F s → F s'

/-- Two facts that others leave true are left true together. -/
theorem stable_and (hF : Stable May F) (hG : Stable May G) :
    Stable May fun s => F s ∧ G s :=
  fun s s' hs h => ⟨hF s s' hs h.1, hG s s' hs h.2⟩

/-- From what is known the program does what it is permitted and can only
end where `Q` holds. -/
def Leads (May : σ → σ → Prop) (Ok : σ → O → Prop)
    (Does : σ → (o : O) → A o → σ → Prop) :
    (σ → Prop) → Prog O A → (σ → Prop) → Prop
  | F, .done, Q => ∀ s, F s → Q s
  | _, .failed, _ => True
  | F, .call o next, Q =>
      (∀ s, F s → Ok s o)
        ∧ ∀ a, ∃ G, Stable May G ∧ (∀ s s', F s → Does s o a s' → G s')
          ∧ Leads May Ok Does G (next a) Q
  | F, .both p q next, Q =>
      ∃ P₁ P₂, Stable May P₁ ∧ Stable May P₂
        ∧ Leads May Ok Does F p P₁ ∧ Leads May Ok Does F q P₂
        ∧ Leads May Ok Does (fun s => P₁ s ∧ P₂ s) next Q

/-- What follows from less follows from more. -/
theorem Leads.weaken (h : Leads May Ok Does F p Q) (hG : ∀ s, G s → F s) :
    Leads May Ok Does G p Q := by
  induction p generalizing F G Q with
  | done => exact fun s hs => h s (hG s hs)
  | failed => trivial
  | call o next _ =>
      refine ⟨fun s hs => h.1 s (hG s hs), fun a => ?_⟩
      obtain ⟨H, hstable, hdoes, hnext⟩ := h.2 a
      exact ⟨H, hstable, fun s s' hs => hdoes s s' (hG s hs), hnext⟩
  | both p q next ihp ihq _ =>
      obtain ⟨P₁, P₂, h₁, h₂, hp, hq, hnext⟩ := h
      exact ⟨P₁, P₂, h₁, h₂, ihp hp hG, ihq hq hG, hnext⟩

/-- A weaker end is reached too. -/
theorem Leads.consequence (h : Leads May Ok Does F p P) (hQ : ∀ s, P s → Q s) :
    Leads May Ok Does F p Q := by
  induction p generalizing F with
  | done => exact fun s hs => hQ s (h s hs)
  | failed => trivial
  | call o next ih =>
      refine ⟨h.1, fun a => ?_⟩
      obtain ⟨H, hstable, hdoes, hnext⟩ := h.2 a
      exact ⟨H, hstable, hdoes, ih a hnext⟩
  | both p q next _ _ ih =>
      obtain ⟨P₁, P₂, h₁, h₂, hp, hq, hnext⟩ := h
      exact ⟨P₁, P₂, h₁, h₂, hp, hq, ih hnext⟩

/-- What is known stays known. -/
theorem Leads.frame
    (hmay : ∀ s o a s', Ok s o → Does s o a s' → May s s')
    (hG : Stable May G) (h : Leads May Ok Does F p Q) :
    Leads May Ok Does (fun s => F s ∧ G s) p fun s => Q s ∧ G s := by
  induction p generalizing F Q with
  | done => exact fun s hs => ⟨h s hs.1, hs.2⟩
  | failed => trivial
  | call o next ih =>
      refine ⟨fun s hs => h.1 s hs.1, fun a => ?_⟩
      obtain ⟨H, hstable, hdoes, hnext⟩ := h.2 a
      refine ⟨fun s => H s ∧ G s, stable_and hstable hG, ?_, ih a hnext⟩
      intro s s' hs hd
      exact ⟨hdoes s s' hs.1 hd, hG s s' (hmay s o a s' (h.1 s hs.1) hd) hs.2⟩
  | both p q next ihp ihq ih =>
      obtain ⟨P₁, P₂, h₁, h₂, hp, hq, hnext⟩ := h
      refine ⟨_, _, stable_and h₁ hG, stable_and h₂ hG, ihp hp, ihq hq, ?_⟩
      exact (ih hnext).weaken fun s hs => ⟨⟨hs.1.1, hs.2.1⟩, hs.1.2⟩

/-- What was known at first is known in the end. -/
theorem Leads.keep
    (hmay : ∀ s o a s', Ok s o → Does s o a s' → May s s')
    (hF : Stable May F) (h : Leads May Ok Does F p Q) :
    Leads May Ok Does F p fun s => Q s ∧ F s :=
  (h.frame hmay hF).weaken fun _ hs => ⟨hs, hs⟩

/-- One operation establishes a fact. -/
theorem leads_perform {o : O} (hok : ∀ s, F s → Ok s o) (hQ : Stable May Q)
    (hdoes : ∀ s a s', F s → Does s o a s' → Q s') :
    Leads May Ok Does F (.perform o) Q :=
  ⟨hok, fun a => ⟨Q, hQ, fun s s' => hdoes s a s', fun _ hs => hs⟩⟩

/-- The second program starts where the first one ends. -/
theorem leads_andThen (h : Leads May Ok Does F p P)
    (hk : Leads May Ok Does P k Q) : Leads May Ok Does F (p.andThen k) Q := by
  induction p generalizing F with
  | done => exact hk.weaken h
  | failed => trivial
  | call o next ih =>
      refine ⟨h.1, fun a => ?_⟩
      obtain ⟨H, hstable, hdoes, hnext⟩ := h.2 a
      exact ⟨H, hstable, hdoes, ih a hnext⟩
  | both p q next _ _ ih =>
      obtain ⟨P₁, P₂, h₁, h₂, hp, hq, hnext⟩ := h
      exact ⟨P₁, P₂, h₁, h₂, hp, hq, ih hnext⟩

/-- Each of the programs leaves what it leads to. -/
theorem leads_all {ι : Type*} {f : ι → Prog O A} {goal : ι → σ → Prop}
    {xs : List ι} (hgoal : ∀ x ∈ xs, Stable May (goal x))
    (h : ∀ x ∈ xs, Leads May Ok Does F (f x) (goal x)) :
    Leads May Ok Does F (.all (xs.map f)) fun s => ∀ x ∈ xs, goal x s := by
  induction xs with
  | nil => exact fun s _ x hx => absurd hx List.not_mem_nil
  | cons x xs ih =>
      refine ⟨goal x, fun s => ∀ y ∈ xs, goal y s,
        hgoal x List.mem_cons_self, ?_, h x List.mem_cons_self, ?_, ?_⟩
      · intro s s' hs hall y hy
        exact hgoal y (List.mem_cons_of_mem x hy) s s' hs (hall y hy)
      · exact ih (fun y hy => hgoal y (List.mem_cons_of_mem x hy))
          fun y hy => h y (List.mem_cons_of_mem x hy)
      · intro s hs y hy
        rcases List.mem_cons.mp hy with heq | hy
        · rw [heq]
          exact hs.1
        · exact hs.2 y hy

/-- A program of operations that are always permitted keeps what is known. -/
theorem leads_of_only {R : O → Prop}
    (hmay : ∀ s o a s', Ok s o → Does s o a s' → May s s')
    (hR : ∀ s o, R o → Ok s o) (hF : Stable May F) (hp : p.Only R) :
    Leads May Ok Does F p F := by
  induction p with
  | done => exact fun _ hs => hs
  | failed => trivial
  | call o next ih =>
      refine ⟨fun s _ => hR s o hp.1, fun a => ⟨F, hF, ?_, ih a (hp.2 a)⟩⟩
      intro s s' hs hd
      exact hF s s' (hmay s o a s' (hR s o hp.1) hd) hs
  | both p q next ihp ihq ih =>
      refine ⟨F, F, hF, hF, ihp hp.1, ihq hp.2.1, ?_⟩
      exact (ih hp.2.2).weaken fun s hs => hs.1

-- ------------------------------------------------------ always permitted

variable {R : O → Prop}

/-- Programs in sequence call no more than each of them may. -/
theorem only_andThen (hp : p.Only R) (hk : k.Only R) : (p.andThen k).Only R := by
  induction p with
  | done => exact hk
  | failed => trivial
  | call o next ih => exact ⟨hp.1, fun a => ih a (hp.2 a)⟩
  | both p q next _ _ ih => exact ⟨hp.1, hp.2.1, ih hp.2.2⟩

/-- So do programs in turn. -/
theorem only_inTurn {ps : List (Prog O A)} (h : ∀ p ∈ ps, p.Only R) :
    (Prog.inTurn ps).Only R := by
  induction ps with
  | nil => trivial
  | cons p ps ih =>
      exact only_andThen (h p List.mem_cons_self)
        (ih fun q hq => h q (List.mem_cons_of_mem p hq))

/-- So do programs side by side. -/
theorem only_all {ps : List (Prog O A)} (h : ∀ p ∈ ps, p.Only R) :
    (Prog.all ps).Only R := by
  induction ps with
  | nil => trivial
  | cons p ps ih =>
      exact ⟨h p List.mem_cons_self,
        ih fun q hq => h q (List.mem_cons_of_mem p hq), trivial⟩

-- ================================================================ running

/-- What a running program is owed. -/
def At (May : σ → σ → Prop) (Ok : σ → O → Prop)
    (Does : σ → (o : O) → A o → σ → Prop) (s : σ) :
    Prog O A → (σ → Prop) → Prop
  | .done, Q => Q s
  | .failed, _ => True
  | .call o next, Q =>
      ∃ F, Stable May F ∧ F s ∧ Leads May Ok Does F (.call o next) Q
  | .both p q next, Q =>
      ∃ P₁ P₂, Stable May P₁ ∧ Stable May P₂
        ∧ At May Ok Does s p P₁ ∧ At May Ok Does s q P₂
        ∧ Leads May Ok Does (fun s => P₁ s ∧ P₂ s) next Q

/-- A program that starts where `F` holds is owed its end. -/
theorem at_of_leads (h : Leads May Ok Does F p Q) (hF : Stable May F) (hs : F s) :
    At May Ok Does s p Q := by
  induction p generalizing F Q with
  | done => exact h s hs
  | failed => trivial
  | call o next => exact ⟨F, hF, hs, h⟩
  | both p q next ihp ihq _ =>
      obtain ⟨P₁, P₂, h₁, h₂, hp, hq, hnext⟩ := h
      exact ⟨P₁, P₂, h₁, h₂, ihp hp hF hs, ihq hq hF hs, hnext⟩

/-- A step of others. -/
theorem At.others (h : At May Ok Does s p Q) (hQ : Stable May Q)
    (hs : May s s') : At May Ok Does s' p Q := by
  induction p generalizing Q with
  | done => exact hQ s s' hs h
  | failed => trivial
  | call o next =>
      obtain ⟨F, hF, hFs, hleads⟩ := h
      exact ⟨F, hF, hF s s' hs hFs, hleads⟩
  | both p q next ihp ihq _ =>
      obtain ⟨P₁, P₂, h₁, h₂, hp, hq, hnext⟩ := h
      exact ⟨P₁, P₂, h₁, h₂, ihp hp h₁, ihq hq h₂, hnext⟩

variable (perform : σ → (o : O) → σ × A o)

/-- What a step of a running program does, it is permitted to. -/
theorem At.performs {T : σ → Prop} (h : At May Ok Does s p Q)
    (hsame : T s) (hperform : ∀ o, Ok s o → T (perform s o).1)
    (path : List Bool) (broken : Option Break) :
    T (ForkJoin.advance perform s p path broken).1 := by
  induction p generalizing Q path with
  | done => exact hsame
  | failed => exact hsame
  | call o next =>
      obtain ⟨F, -, hFs, hleads⟩ := h
      have hok := hleads.1 s hFs
      rcases broken with _ | _ | _
      · exact hperform o hok
      · exact hsame
      · exact hperform o hok
  | both p q next ihp ihq _ =>
      obtain ⟨P₁, P₂, -, -, hp, hq, -⟩ := h
      unfold ForkJoin.advance
      split
      · exact hsame
      · split
        · exact hsame
        · exact ihp hp _
        · exact ihq hq _

/-- A step of its own. -/
theorem At.advance (hrefl : ∀ s, May s s)
    (hmay : ∀ s o a s', Ok s o → Does s o a s' → May s s')
    (hdoes : ∀ o, Does s o (perform s o).2 (perform s o).1)
    (h : At May Ok Does s p Q) (path : List Bool) (broken : Option Break) :
    At May Ok Does (ForkJoin.advance perform s p path broken).1
      (ForkJoin.advance perform s p path broken).2 Q := by
  induction p generalizing Q path with
  | done => exact h
  | failed => trivial
  | call o next =>
      rcases broken with _ | _ | _
      · obtain ⟨F, -, hFs, hleads⟩ := h
        obtain ⟨G, hG, hnext, hleads⟩ := hleads.2 (perform s o).2
        exact at_of_leads hleads hG (hnext s _ hFs (hdoes o))
      · trivial
      · trivial
  | both p q next ihp ihq _ =>
      have hall := h
      obtain ⟨P₁, P₂, h₁, h₂, hp, hq, hnext⟩ := h
      have hothers : ∀ (r : Prog O A) (P : σ → Prop), At May Ok Does s r P →
          ∀ path, May s (ForkJoin.advance perform s r path broken).1 := by
        intro r P hr path
        exact hr.performs perform (hrefl s)
          (fun o hok => hmay s o _ _ hok (hdoes o)) path broken
      unfold ForkJoin.advance
      split
      · next hended =>
          rw [Bool.and_eq_true, Prog.ended_iff, Prog.ended_iff] at hended
          rw [hended.1] at hp
          rw [hended.2] at hq
          exact at_of_leads hnext (stable_and h₁ h₂) ⟨hp, hq⟩
      · split
        · exact hall
        · next path =>
            exact ⟨P₁, P₂, h₁, h₂, ihp hp path, hq.others h₂ (hothers p P₁ hp path),
              hnext⟩
        · next path =>
            exact ⟨P₁, P₂, h₁, h₂, hp.others h₁ (hothers q P₂ hq path), ihq hq path,
              hnext⟩

end Rules

end ForkJoin
