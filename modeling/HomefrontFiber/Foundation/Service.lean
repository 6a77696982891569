import Mathlib.Logic.Basic

/-!
# Computations on a store that may throw

A service function reads and writes a store and may throw. As with autocommitted statements, a throw
does not undo what was written before it; only `transaction` rolls back. `Triple` is the
partial-correctness assertion with two exits.
-/

namespace HomefrontFiber

/-- A computation on a store `σ` that returns an `α` or throws an `ε`. -/
def Service (σ ε α : Type) : Type := σ → Except ε α × σ

namespace Service

variable {σ ε α β : Type}

instance : Monad (Service σ ε) where
  pure a := fun s => (.ok a, s)
  bind m f := fun s =>
    match m s with
    | (.ok a, s') => f a s'
    | (.error e, s') => (.error e, s')

def read (f : σ → α) : Service σ ε α := fun s => (.ok (f s), s)

def write (f : σ → σ) : Service σ ε Unit := fun s => (.ok (), f s)

def throw (e : ε) : Service σ ε α := fun s => (.error e, s)

def check (r : σ → Except ε α) : Service σ ε α := fun s => (r s, s)

/-- Runs `m` and swallows the errors that `p` expects. -/
def swallow (p : ε → Bool) (m : Service σ ε α) : Service σ ε (Option α) := fun s =>
  match m s with
  | (.ok a, s') => (.ok (some a), s')
  | (.error e, s') => if p e then (.ok none, s') else (.error e, s')

/-- Runs `m` and hands its verdict to what follows. -/
def attempt (m : Service σ ε α) : Service σ ε (Except ε α) := fun s => (.ok (m s).1, (m s).2)

/-- Runs `m` with all its writes or none. -/
def transaction (m : Service σ ε α) : Service σ ε α := fun s =>
  match m s with
  | (.ok a, s') => (.ok a, s')
  | (.error e, _) => (.error e, s)

/-- Runs `m` on a part of a larger store. -/
def zoom {τ ε' : Type} (get : τ → σ) (set : τ → σ → τ) (wrap : ε → ε') (m : Service σ ε α) :
    Service τ ε' α := fun t =>
  match m (get t) with
  | (.ok a, s) => (.ok a, set t s)
  | (.error e, s) => (.error (wrap e), set t s)

def forEach (f : β → Service σ ε Unit) : List β → Service σ ε Unit
  | [] => pure ()
  | b :: bs => do
    f b
    forEach f bs

theorem bind_apply (m : Service σ ε α) (f : α → Service σ ε β) (s : σ) :
    (m >>= f) s = match m s with
      | (.ok a, s') => f a s'
      | (.error e, s') => (.error e, s') := rfl

variable {m : Service σ ε α} {f : α → Service σ ε β} {s : σ} {a : α} {e : ε} {τ ε' : Type}

variable {s' : σ} {get : τ → σ} {wrap : ε → ε'} {t : τ}

theorem bind_ok (h : m s = (.ok a, s')) : (m >>= f) s = f a s' := by
  rw [bind_apply, h]

theorem bind_error (h : m s = (.error e, s')) : (m >>= f) s = (.error e, s') := by
  rw [bind_apply, h]

theorem bind_pure_store (m : Service σ ε α) (f : α → β) (s : σ) :
    ((m >>= fun a => pure (f a)) s).2 = (m s).2 := by
  rw [bind_apply]
  rcases m s with ⟨_ | _, _⟩ <;> rfl

@[simp] theorem read_apply (f : σ → α) (s : σ) : (read f : Service σ ε α) s = (.ok (f s), s) := rfl

@[simp] theorem write_apply (f : σ → σ) (s : σ) :
    (write f : Service σ ε Unit) s = (.ok (), f s) := rfl

@[simp] theorem throw_apply (e : ε) (s : σ) : (throw e : Service σ ε α) s = (.error e, s) := rfl

@[simp] theorem check_apply (r : σ → Except ε α) (s : σ) :
    (check r : Service σ ε α) s = (r s, s) := rfl

theorem zoom_ok {set : τ → σ → τ} (h : m (get t) = (.ok a, s)) :
    zoom get set wrap m t = (.ok a, set t s) := by
  simp only [zoom, h]

theorem zoom_error {set : τ → σ → τ} (h : m (get t) = (.error e, s)) :
    zoom get set wrap m t = (.error (wrap e), set t s) := by
  simp only [zoom, h]

theorem zoom_store {set : τ → σ → τ}
    (m : Service σ ε α) (t : τ) : (zoom get set wrap m t).2 = set t (m (get t)).2 := by
  unfold zoom
  rcases m (get t) with ⟨_ | _, _⟩ <;> rfl

/-- From a store with `P`, the computation returns with `Q` or throws with `E`. -/
def Triple (P : σ → Prop) (m : Service σ ε α) (Q : α → σ → Prop) (E : ε → σ → Prop) : Prop :=
  ∀ s, P s → match m s with
    | (.ok a, s') => Q a s'
    | (.error e, s') => E e s'

/-- `m` keeps `I`, whether it returns or throws. -/
def Keeps (I : σ → Prop) (m : Service σ ε α) : Prop :=
  Triple I m (fun _ => I) (fun _ => I)

section Rules

variable {P P' : σ → Prop} {Q Q' : α → σ → Prop} {R : β → σ → Prop} {E E' : ε → σ → Prop}

theorem Triple.pure (h : ∀ s, P s → Q a s) : Triple P (Pure.pure a : Service σ ε α) Q E :=
  h

theorem Triple.read {f : σ → α} (h : ∀ s, P s → Q (f s) s) :
    Triple P (Service.read f : Service σ ε α) Q E := h

theorem Triple.write {f : σ → σ} {Q : Unit → σ → Prop} (h : ∀ s, P s → Q () (f s)) :
    Triple P (Service.write f : Service σ ε Unit) Q E := h

theorem Triple.throw (h : ∀ s, P s → E e s) : Triple P (Service.throw e : Service σ ε α) Q E := h

theorem Triple.check {r : σ → Except ε α} (hok : ∀ s a, P s → r s = .ok a → Q a s)
    (herr : ∀ s e, P s → r s = .error e → E e s) :
    Triple P (Service.check r : Service σ ε α) Q E := by
  intro s hs
  rw [check_apply]
  cases h : r s with
  | ok a => exact hok s a hs h
  | error e => exact herr s e hs h

theorem Triple.bind (hm : Triple P m Q E)
    (hf : ∀ a, Triple (Q a) (f a) R E) : Triple P (m >>= f) R E := by
  intro s hs
  have h := hm s hs
  rw [bind_apply]
  revert h
  rcases m s with ⟨e | a, s'⟩
  · exact id
  · exact hf a s'

/-- A step whose result and store do not matter keeps what does not speak of the store. -/
theorem Triple.bind_const {p : Prop} (hf : ∀ a, Triple (fun _ => p) (f a) R (fun _ _ => True)) :
    Triple (fun _ => p) (m >>= f) R (fun _ _ => True) := by
  intro s hp
  rw [bind_apply]
  rcases m s with ⟨e | a, s'⟩
  · exact trivial
  · exact hf a s' hp

theorem Triple.conseq (h : Triple P m Q E) (hP : ∀ s, P' s → P s)
    (hQ : ∀ a s, Q a s → Q' a s) (hE : ∀ e s, E e s → E' e s) : Triple P' m Q' E' := by
  intro s hs
  have h := h s (hP s hs)
  revert h
  rcases m s with ⟨e | a, s'⟩
  · exact hE e s'
  · exact hQ a s'

theorem Triple.and (h : Triple P m Q E) (h' : Triple P' m Q' E') :
    Triple (fun s => P s ∧ P' s) m (fun a s => Q a s ∧ Q' a s) (fun e s => E e s ∧ E' e s) := by
  intro s hs
  have h₁ := h s hs.1
  have h₂ := h' s hs.2
  revert h₁ h₂
  rcases m s with ⟨e | a, s'⟩ <;> exact And.intro

variable {p : ε → Bool} {I : σ → Prop}

theorem Triple.swallow {Q : Option α → σ → Prop}
    (h : Triple P m (fun a => Q (some a)) (fun e s => if p e then Q none s else E e s)) :
    Triple P (Service.swallow p m) Q E := by
  intro s hs
  have h := h s hs
  unfold Service.swallow
  revert h
  rcases m s with ⟨e | a, s'⟩
  · dsimp only
    split <;> exact id
  · exact id

theorem Keeps.pure (a : α) : Keeps I (Pure.pure a : Service σ ε α) :=
  fun _ h => h

theorem Keeps.read (f : σ → α) : Keeps I (Service.read f : Service σ ε α) :=
  fun _ h => h

theorem Keeps.throw (e : ε) : Keeps I (Service.throw e : Service σ ε α) :=
  fun _ h => h

theorem Keeps.write {f : σ → σ} (h : ∀ s, I s → I (f s)) :
    Keeps I (Service.write f : Service σ ε Unit) := h

theorem Keeps.check (r : σ → Except ε α) : Keeps I (Service.check r : Service σ ε α) :=
  Triple.check (fun _ _ h _ => h) (fun _ _ h _ => h)

theorem Keeps.bind (hm : Keeps I m) (hf : ∀ a, Keeps I (f a)) : Keeps I (m >>= f) :=
  Triple.bind hm hf

theorem Keeps.swallow (h : Keeps I m) : Keeps I (Service.swallow p m) :=
  Triple.swallow (Triple.conseq h (fun _ => id) (fun _ _ => id) fun e s hs => by
    split <;> exact hs)

theorem Keeps.transaction (h : Keeps I m) : Keeps I (Service.transaction m) := by
  intro s hs
  have h := h s hs
  unfold Service.transaction
  revert h
  rcases m s with ⟨e | a, s'⟩
  · exact fun _ => hs
  · exact id

theorem Keeps.attempt (h : Keeps I m) : Keeps I (Service.attempt m) := by
  intro s hs
  have h := h s hs
  unfold Service.attempt
  revert h
  rcases m s with ⟨e | a, s'⟩ <;> exact id

theorem Keeps.forEach {f : β → Service σ ε Unit} {bs : List β}
    (h : ∀ b ∈ bs, Keeps I (f b)) : Keeps I (Service.forEach f bs) := by
  induction bs with
  | nil => exact Keeps.pure ()
  | cons b bs ih =>
    exact Keeps.bind (h b List.mem_cons_self)
      fun _ => ih fun b' hb' => h b' (List.mem_cons_of_mem b hb')

theorem Triple.store (h : Triple P m (fun _ => I) fun _ => I) (hs : P s) : I (m s).2 := by
  have h := h s hs
  revert h
  rcases m s with ⟨e | a, s'⟩ <;> exact id

theorem Keeps.store (h : Keeps I m) (hs : I s) : I (m s).2 := Triple.store h hs

end Rules

end Service

end HomefrontFiber
