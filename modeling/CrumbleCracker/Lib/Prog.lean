import Mathlib.Logic.Basic

/-!
# Fallible programs over a state

`Prog σ ε α` is a program that reads and changes a state and may fail; a failure keeps the state it has reached.
`Triple P x Q E` is the partial correctness of such a program, with a postcondition for success and one for failure:
all programs here terminate, so it is total correctness as well.

* `Triple.bind`, `triple_pure`, `triple_fail`, `triple_read`, `triple_update` : one rule for each way to build a
  program;
* `Keeps I x` : the program keeps `I`, however it ends.
-/

namespace CrumbleCracker

def Prog (σ ε α : Type) : Type := σ → Except ε α × σ

namespace Prog

variable {σ ε α β : Type}

instance : Monad (Prog σ ε) where
  pure a := fun s => (.ok a, s)
  bind x f := fun s => match x s with
    | (.ok a, s') => f a s'
    | (.error e, s') => (.error e, s')

def fail (e : ε) : Prog σ ε α := fun s => (.error e, s)

def read (f : σ → α) : Prog σ ε α := fun s => (.ok (f s), s)

def update (f : σ → α × σ) : Prog σ ε α := fun s => (.ok (f s).1, (f s).2)

def attempt {ε' : Type} (x : Prog σ ε α) : Prog σ ε' (Except ε α) := fun s => (.ok (x s).1, (x s).2)

def require (p : Prop) [Decidable p] (e : ε) : Prog σ ε Unit := if p then pure () else fail e

def ofOption (o : Option α) (e : ε) : Prog σ ε α := match o with
  | some a => pure a
  | none => fail e

@[simp] theorem pure_run (a : α) (s : σ) : (pure a : Prog σ ε α) s = (.ok a, s) := rfl

@[simp] theorem fail_run (e : ε) (s : σ) : (fail e : Prog σ ε α) s = (.error e, s) := rfl

@[simp] theorem read_run (f : σ → α) (s : σ) : (read f : Prog σ ε α) s = (.ok (f s), s) := rfl

@[simp] theorem update_run (f : σ → α × σ) (s : σ) : (update f : Prog σ ε α) s = (.ok (f s).1, (f s).2) := rfl

theorem bind_run (x : Prog σ ε α) (f : α → Prog σ ε β) (s : σ) :
    (x >>= f) s = match x s with
      | (.ok a, s') => f a s'
      | (.error e, s') => (.error e, s') := rfl

theorem bind_of_ok {x : Prog σ ε α} {f : α → Prog σ ε β} {s s' : σ} {a : α} (h : x s = (.ok a, s')) :
    (x >>= f) s = f a s' := by
  rw [bind_run, h]

theorem read_bind (f : σ → α) (g : α → Prog σ ε β) (s : σ) : (read f >>= g) s = g (f s) s := rfl

theorem bind_assoc {γ : Type} (x : Prog σ ε α) (f : α → Prog σ ε β) (g : β → Prog σ ε γ) :
    x >>= f >>= g = x >>= fun a => f a >>= g := by
  funext s
  rw [bind_run, bind_run, bind_run]
  rcases x s with ⟨_ | a, s'⟩
  · rfl
  · rfl

theorem ofOption_some_bind (a : α) (e : ε) (f : α → Prog σ ε β) : ofOption (some a) e >>= f = f a := rfl

/-- From states with `P` the program ends with `Q`, or fails with `E`. -/
def Triple (P : σ → Prop) (x : Prog σ ε α) (Q : α → σ → Prop) (E : ε → σ → Prop) : Prop :=
  ∀ s, P s → match x s with
    | (.ok a, s') => Q a s'
    | (.error e, s') => E e s'

variable {x : Prog σ ε α}

section Rules

variable {P : σ → Prop} {Q : α → σ → Prop} {R : β → σ → Prop} {E : ε → σ → Prop}

theorem triple_pure {a : α} (h : ∀ s, P s → Q a s) : Triple P (pure a) Q E := h

theorem triple_fail {e : ε} (h : ∀ s, P s → E e s) : Triple P (fail e) Q E := h

theorem triple_read {f : σ → α} (h : ∀ s, P s → Q (f s) s) : Triple P (read f) Q E := h

theorem triple_update {f : σ → α × σ} (h : ∀ s, P s → Q (f s).1 (f s).2) : Triple P (update f) Q E := h

/-- How the program ends from one state. -/
theorem Triple.ends (h : Triple P x Q E) {s : σ} (hs : P s) :
    (∃ a s', x s = (.ok a, s') ∧ Q a s') ∨ ∃ e s', x s = (.error e, s') ∧ E e s' := by
  have hrun := h s hs
  rcases hx : x s with ⟨e | a, s'⟩ <;> rw [hx] at hrun
  · exact .inr ⟨e, s', rfl, hrun⟩
  · exact .inl ⟨a, s', rfl, hrun⟩

theorem Triple.bind {f : α → Prog σ ε β} (hx : Triple P x Q E) (hf : ∀ a, Triple (Q a) (f a) R E) :
    Triple P (x >>= f) R E := by
  intro s hs
  rw [bind_run]
  rcases hx.ends hs with ⟨a, s', hrun, h⟩ | ⟨e, s', hrun, h⟩ <;> rw [hrun]
  · exact hf a s' h
  · exact h

theorem Triple.conseq {P' : σ → Prop} {Q' : α → σ → Prop} {E' : ε → σ → Prop} (h : Triple P x Q E)
    (hP : ∀ s, P' s → P s) (hQ : ∀ a s, Q a s → Q' a s) (hE : ∀ e s, E e s → E' e s) : Triple P' x Q' E' := by
  intro s hs
  rcases h.ends (hP s hs) with ⟨a, s', hrun, h⟩ | ⟨e, s', hrun, h⟩ <;> rw [hrun]
  · exact hQ a s' h
  · exact hE e s' h

theorem Triple.and {P' : σ → Prop} {Q' : α → σ → Prop} {E' : ε → σ → Prop} (h : Triple P x Q E)
    (h' : Triple P' x Q' E') :
    Triple (fun s => P s ∧ P' s) x (fun a s => Q a s ∧ Q' a s) fun e s => E e s ∧ E' e s := by
  intro s hs
  have hrun := h s hs.1
  have hrun' := h' s hs.2
  rcases hx : x s with ⟨_ | a, s'⟩ <;> rw [hx] at hrun hrun' <;> exact ⟨hrun, hrun'⟩

/-- What a precondition says beside the state can be used. -/
theorem triple_fact {p : Prop} (h : p → Triple P x Q E) : Triple (fun s => p ∧ P s) x Q E := fun s hs => h hs.1 s hs.2

theorem Triple.of_state (h : Triple P x Q E) {s : σ} (hs : P s) : Triple (· = s) x Q E :=
  fun s' heq => h s' (heq ▸ hs)

theorem Triple.attempt {ε' : Type} {E' : ε' → σ → Prop} (h : Triple P x Q E) :
    Triple P (x.attempt : Prog σ ε' (Except ε α)) (fun r s => match r with
      | .ok a => Q a s
      | .error e => E e s) E' := by
  intro s hs
  rw [Prog.attempt]
  rcases h.ends hs with ⟨a, s', hrun, h⟩ | ⟨e, s', hrun, h⟩ <;> rw [hrun] <;> exact h

theorem triple_require {p : Prop} [Decidable p] {e : ε} {Q : Unit → σ → Prop} (hp : ∀ s, P s → p → Q () s)
    (hn : ∀ s, P s → ¬p → E e s) : Triple P (require p e) Q E := by
  unfold require
  split
  · exact triple_pure fun s hs => hp s hs ‹_›
  · exact triple_fail fun s hs => hn s hs ‹_›

theorem triple_require_of {p : Prop} [Decidable p] {e : ε} (hp : p) : Triple P (require p e) (fun _ => P) E :=
  triple_require (fun _ hs _ => hs) fun _ _ hn => absurd hp hn

theorem triple_ofOption {o : Option α} {e : ε} (hs : ∀ a s, o = some a → P s → Q a s)
    (hn : ∀ s, o = none → P s → E e s) :
    Triple P (ofOption o e) Q E := by
  unfold ofOption
  cases o with
  | none => exact triple_fail fun s h => hn s rfl h
  | some a => exact triple_pure fun s h => hs a s rfl h

theorem triple_ite {c : Prop} [Decidable c] {y : Prog σ ε α} (hx : c → Triple P x Q E) (hy : ¬c → Triple P y Q E) :
    Triple P (if c then x else y) Q E := by
  split
  · exact hx ‹_›
  · exact hy ‹_›

end Rules

def Keeps (I : σ → Prop) (x : Prog σ ε α) : Prop := Triple I x (fun _ => I) fun _ => I

section Keeps

variable {I : σ → Prop}

/-- What holds behind one state, however the program ends. -/
theorem triple_state {s : σ} : Triple (· = s) x (fun _ => I) (fun _ => I) ↔ I (x s).2 := by
  constructor
  · intro h
    rcases h.ends rfl with ⟨_, s', hrun, h⟩ | ⟨_, s', hrun, h⟩ <;> rw [hrun] <;> exact h
  · rintro h s rfl
    rcases hx : x s with ⟨r, s'⟩
    rw [hx] at h
    cases r <;> exact h

theorem keeps_iff : Keeps I x ↔ ∀ s, I s → I (x s).2 := by
  constructor
  · intro h s hs
    refine triple_state.mp (h.conseq ?_ (fun _ _ h => h) fun _ _ h => h)
    rintro s rfl
    exact hs
  · exact fun h s hs => triple_state.mpr (h s hs) s rfl

theorem keeps_pure (a : α) : Keeps I (pure a : Prog σ ε α) := triple_pure fun _ h => h

theorem keeps_fail (e : ε) : Keeps I (fail e : Prog σ ε α) := triple_fail fun _ h => h

theorem keeps_read (f : σ → α) : Keeps I (read f : Prog σ ε α) := triple_read fun _ h => h

theorem keeps_update {f : σ → α × σ} (h : ∀ s, I s → I (f s).2) : Keeps I (update f : Prog σ ε α) := triple_update h

theorem Keeps.bind {f : α → Prog σ ε β} (hx : Keeps I x) (hf : ∀ a, Keeps I (f a)) : Keeps I (x >>= f) :=
  Triple.bind hx hf

theorem Keeps.map (h : Keeps I x) (f : α → β) : Keeps I (f <$> x) := h.bind fun a => keeps_pure (f a)

theorem Keeps.foldlM {f : β → α → Prog σ ε β} {l : List α} (hf : ∀ b, ∀ a ∈ l, Keeps I (f b a)) (b : β) :
    Keeps I (l.foldlM f b) := by
  induction l generalizing b with
  | nil => exact keeps_pure b
  | cons a l ih => exact (hf b a List.mem_cons_self).bind (ih fun b a ha => hf b a (List.mem_cons_of_mem _ ha))

theorem Keeps.forM {f : α → Prog σ ε PUnit} (hf : ∀ a, Keeps I (f a)) (l : List α) : Keeps I (l.forM f) := by
  induction l with
  | nil => exact keeps_pure _
  | cons a l ih => exact (hf a).bind fun _ => ih

theorem keeps_require (p : Prop) [Decidable p] (e : ε) : Keeps I (require p e : Prog σ ε Unit) :=
  triple_require (fun _ h _ => h) fun _ h _ => h

theorem keeps_ofOption (o : Option α) (e : ε) : Keeps I (ofOption o e : Prog σ ε α) :=
  triple_ofOption (fun _ _ _ h => h) fun _ _ h => h

theorem Keeps.attempt {ε' : Type} (h : Keeps I x) : Keeps I (x.attempt : Prog σ ε' (Except ε α)) :=
  keeps_iff.mpr fun s hs => keeps_iff.mp h s hs

theorem keeps_ite {c : Prop} [Decidable c] {y : Prog σ ε α} (hx : Keeps I x) (hy : Keeps I y) :
    Keeps I (if c then x else y) := triple_ite (fun _ => hx) fun _ => hy

end Keeps

end Prog

end CrumbleCracker
