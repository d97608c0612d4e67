import Mathlib.Data.List.Basic

/-!
# Programs that ask their host

`Dialog C A α` is a program that asks questions `c : C` of the system it runs on and goes on with the answers `A c`.
What the system answers and what that does to its state `σ` is a relation `D s c a s'`: the same question may be
answered in several ways, and a call that fails is one of them.

* `Dialog.Run` : the runs of one program, which may be stopped at any question;
* `Dialog.Pool` : the runs of several programs at once, in any interleaving of their questions;
* `Dialog.Every` : what holds of every question and answer, with its rules and `Dialog.Every.pool`;
* `Dialog.Wp` : what holds at every question and where the program ends, with its rules and `Dialog.Wp.steps`.
-/

namespace CrumbleCracker

open List

inductive Dialog (C : Type) (A : C → Type) (α : Type) : Type
  | done (a : α)
  | ask (c : C) (next : A c → Dialog C A α)

namespace Dialog

variable {C : Type} {A : C → Type} {σ α β : Type}

def bind (x : Dialog C A α) (f : α → Dialog C A β) : Dialog C A β := match x with
  | done a => f a
  | ask c next => ask c fun a => (next a).bind f

instance : Monad (Dialog C A) where
  pure := done
  bind := bind

def call (c : C) : Dialog C A (A c) := ask c done

abbrev Event (C : Type) (A : C → Type) : Type := (c : C) × A c

/-- A run of the program from `s` to `s'` with its questions and answers; it ends with a result, or is stopped. -/
inductive Run (D : σ → (c : C) → A c → σ → Prop) : σ → Dialog C A α → List (Event C A) → σ → Option α → Prop
  | stop (s : σ) (x : Dialog C A α) : Run D s x [] s none
  | done (s : σ) (a : α) : Run D s (.done a) [] s (some a)
  | ask {s s' s'' : σ} {c : C} {a : A c} {next : A c → Dialog C A α} {es : List (Event C A)} {r : Option α}
      (h : D s c a s') (rest : Run D s' (next a) es s'' r) : Run D s (.ask c next) (⟨c, a⟩ :: es) s'' r

/-- A run of several programs at once: any of them may ask next. -/
inductive Pool (D : σ → (c : C) → A c → σ → Prop) :
    σ → List (Dialog C A α) → List (Event C A) → σ → List (Dialog C A α) → Prop
  | nil (s : σ) (xs : List (Dialog C A α)) : Pool D s xs [] s xs
  | ask {s s' s'' : σ} {xs xs' : List (Dialog C A α)} {i : Nat} {c : C} {a : A c} {next : A c → Dialog C A α}
      {es : List (Event C A)} (hi : xs[i]? = some (.ask c next)) (h : D s c a s')
      (rest : Pool D s' (xs.set i (next a)) es s'' xs') : Pool D s xs (⟨c, a⟩ :: es) s'' xs'

variable {s s' : σ} {x : Dialog C A α} {es : List (Event C A)}

section Runs

variable {D : σ → (c : C) → A c → σ → Prop} {k : α → Dialog C A β}

theorem Run.bind {s'' : σ} {es' : List (Event C A)} {a : α} {r : Option β} (h : Run D s x es s' (some a))
    (h' : Run D s' (k a) es' s'' r) : Run D s (x >>= k) (es ++ es') s'' r := by
  generalize ho : some a = o at h
  induction h with
  | stop => cases ho
  | done s b => cases ho; exact h'
  | ask hd _ ih => exact .ask hd (ih h' ho)

theorem Run.bind_none (h : Run D s x es s' none) : Run D s (x >>= k) es s' none := by
  generalize ho : none = o at h
  induction h with
  | stop => exact .stop _ _
  | done s b => cases ho
  | ask hd _ ih => exact .ask hd (ih ho)

theorem Run.of_bind {b : β} (h : Run D s (x >>= k) es s' (some b)) :
    ∃ es₁ s₁ a es₂, Run D s x es₁ s₁ (some a) ∧ Run D s₁ (k a) es₂ s' (some b) := by
  induction x generalizing s es with
  | done a => exact ⟨[], s, a, es, .done _ _, h⟩
  | ask c next ih =>
    cases h with
    | ask hd rest =>
      obtain ⟨es₁, s₁, a, es₂, h₁, h₂⟩ := ih _ rest
      exact ⟨_, s₁, a, es₂, .ask hd h₁, h₂⟩

theorem Run.pool {r : Option α} (h : Run D s x es s' r) {xs : List (Dialog C A α)} {i : Nat} (hi : xs[i]? = some x) :
    ∃ xs', Pool D s xs es s' xs' := by
  induction h generalizing xs with
  | stop | done => exact ⟨xs, .nil _ _⟩
  | @ask s s' s'' c a next es r hd _ ih =>
    obtain ⟨hlt, -⟩ := List.getElem?_eq_some_iff.mp hi
    have hset : (xs.set i (next a))[i]? = some (next a) := getElem?_set_self hlt
    obtain ⟨xs', hp⟩ := ih hset
    exact ⟨xs', .ask hi hd hp⟩

end Runs

variable {y : Dialog C A α}

section Every

/-- `P` holds of every question and answer of the program, whatever is answered, and `Q` of its result. -/
def Every (P : (c : C) → A c → Prop) (Q : α → Prop) : Dialog C A α → Prop
  | done a => Q a
  | ask c next => ∀ a, P c a ∧ (next a).Every P Q

variable {P : (c : C) → A c → Prop} {Q : α → Prop} {R : β → Prop}

theorem Every.bind {f : α → Dialog C A β} (hx : x.Every P Q) (hf : ∀ a, Q a → (f a).Every P R) :
    (x >>= f).Every P R := by
  induction x with
  | done a => exact hf a hx
  | ask c next ih => exact fun a => ⟨(hx a).1, ih a (hx a).2⟩

theorem every_ite {p : Prop} [Decidable p] (hx : p → x.Every P Q) (hy : ¬p → y.Every P Q) :
    (if p then x else y).Every P Q := by
  split
  · exact hx ‹_›
  · exact hy ‹_›

variable {D : σ → (c : C) → A c → σ → Prop}

theorem Every.result (hx : x.Every P Q) {a : α} (h : Run D s x es s' (some a)) : Q a := by
  generalize ho : some a = o at h
  induction h with
  | stop => cases ho
  | done => cases ho; exact hx
  | ask _ _ ih => exact ih (hx _).2 ho

theorem Every.run (hx : x.Every P Q) {r : Option α} (h : Run D s x es s' r) : ∀ e ∈ es, P e.1 e.2 := by
  induction h with
  | stop | done => nofun
  | ask _ _ ih => exact forall_mem_cons.2 ⟨(hx _).1, ih (hx _).2⟩

theorem Every.pool {xs xs' : List (Dialog C A α)} (h : Pool D s xs es s' xs') (hxs : ∀ x ∈ xs, x.Every P Q) :
    ∀ e ∈ es, P e.1 e.2 := by
  induction h with
  | nil => nofun
  | @ask s s' s'' xs xs' i c a next es hi _ _ ih =>
    have hx := hxs _ (mem_of_getElem? hi)
    refine forall_mem_cons.2 ⟨(hx a).1, ih fun y hy => ?_⟩
    rcases mem_or_eq_of_mem_set hy with hy | rfl
    · exact hxs y hy
    · exact (hx a).2

end Every

section Wp

/-- The questions and answers that lead from one program and state to what is left of it and the state then. -/
inductive Steps (D : σ → (c : C) → A c → σ → Prop) :
    σ → Dialog C A α → List (Event C A) → σ → Dialog C A α → Prop
  | nil (s : σ) (x : Dialog C A α) : Steps D s x [] s x
  | ask {s s' s'' : σ} {c : C} {a : A c} {next : A c → Dialog C A α} {es : List (Event C A)} {y : Dialog C A α}
      (h : D s c a s') (rest : Steps D s' (next a) es s'' y) : Steps D s (.ask c next) (⟨c, a⟩ :: es) s'' y

variable (D : σ → (c : C) → A c → σ → Prop) (I : σ → C → Prop)

/-- From `s`, `I` holds of the state and the question whenever the program asks, and `Q` where it ends. -/
def Wp : Dialog C A α → (α → σ → Prop) → σ → Prop
  | done a, Q, s => Q a s
  | ask c next, Q, s => I s c ∧ ∀ a s', D s c a s' → (next a).Wp Q s'

variable {D I} {Q : α → σ → Prop} {R : β → σ → Prop}

theorem Wp.bind {f : α → Dialog C A β} (hx : x.Wp D I Q s) (hf : ∀ a s, Q a s → (f a).Wp D I R s) :
    (x >>= f).Wp D I R s := by
  induction x generalizing s with
  | done a => exact hf a s hx
  | ask c next ih => exact ⟨hx.1, fun a s' h => ih a (hx.2 a s' h)⟩

theorem Wp.weaken {Q' : α → σ → Prop} (hx : x.Wp D I Q s) (h : ∀ a s, Q a s → Q' a s) : x.Wp D I Q' s := by
  induction x generalizing s with
  | done a => exact h a s hx
  | ask c next ih => exact ⟨hx.1, fun a s' hd => ih a (hx.2 a s' hd)⟩

theorem wp_ite {p : Prop} [Decidable p] (hx : p → x.Wp D I Q s) (hy : ¬p → y.Wp D I Q s) :
    (if p then x else y).Wp D I Q s := by
  split
  · exact hx ‹_›
  · exact hy ‹_›

theorem Wp.steps (h : Steps D s x es s' y) (hx : x.Wp D I Q s) : y.Wp D I Q s' := by
  induction h with
  | nil => exact hx
  | ask hd _ ih => exact ih (hx.2 _ _ hd)

end Wp

end Dialog

end CrumbleCracker
