/-
Programs whose operations interleave.

A program is a tree: it returns a value, throws, or performs one operation and goes on
with what the operation answers.  Programs that run side by side share a state, and
between two operations of one of them any operations of the others may come.

What is proved here is a rely–guarantee rule.  A contract says which invariant every
operation keeps, what a thread may rely on while the others work, and what has to hold
before a thread performs an operation.  A program obeys the contract when it meets the
precondition at each of its operations, whatever was answered before; then every
interleaving of obedient programs keeps the invariant, and a thread that ends has what
its program promised.
-/
import BookHouse.Lib.Machine
import BookHouse.Lib.Procs

inductive Prog (Op : Type) (Res : Op → Type) (ε α : Type)
  | pure (a : α)
  | throw (e : ε)
  | call (o : Op) (next : Except ε (Res o) → Prog Op Res ε α)

namespace Prog

variable {Op : Type} {Res : Op → Type} {ε α β : Type}

def bind : Prog Op Res ε α → (α → Prog Op Res ε β) → Prog Op Res ε β
  | .pure a, f => f a
  | .throw e, _ => .throw e
  | .call o next, f => .call o fun r => (next r).bind f

/-- Run a program, and another one on what it throws. -/
def tryCatch : Prog Op Res ε α → (ε → Prog Op Res ε α) → Prog Op Res ε α
  | .pure a, _ => .pure a
  | .throw e, h => h e
  | .call o next, h => .call o fun r => (next r).tryCatch h

instance : Monad (Prog Op Res ε) where
  pure := .pure
  bind := bind

instance : MonadExceptOf ε (Prog Op Res ε) where
  throw := .throw
  tryCatch := tryCatch

theorem bind_pure (p : Prog Op Res ε α) : p >>= Pure.pure = p := by
  induction p with
  | pure a => rfl
  | throw e => rfl
  | call o next ih => exact congrArg (Prog.call o) (funext ih)

theorem map_bind {γ : Type} (g : β → γ) (f : α → Prog Op Res ε β) (p : Prog Op Res ε α) :
    g <$> (p >>= f) = p >>= fun a => g <$> f a := by
  induction p with
  | pure a => rfl
  | throw e => rfl
  | call o next ih => exact congrArg (Prog.call o) (funext ih)

/-- One operation; what it throws, the program throws. -/
def perform (o : Op) : Prog Op Res ε (Res o) :=
  .call o fun
    | .ok a => .pure a
    | .error e => .throw e

/-- One operation; what it throws is a value. -/
def attempt (o : Op) : Prog Op Res ε (Except ε (Res o)) := .call o .pure

/-- Run a program; what it throws is a value. -/
def catching : Prog Op Res ε α → Prog Op Res ε (Except ε α)
  | .pure a => .pure (.ok a)
  | .throw e => .pure (.error e)
  | .call o next => .call o fun r => (next r).catching

/-- A computation that may have failed. -/
def lift : Except ε α → Prog Op Res ε α
  | .ok a => .pure a
  | .error e => .throw e

/-- The program has returned or thrown. -/
def ended : Prog Op Res ε α → Bool
  | .call .. => false
  | _ => true

/-! ### Threads on a shared state -/

section world

variable {σ ι ρ : Type}

/-- What an operation of thread `i` answers and leaves behind; `none` while it has to wait. -/
abbrev Semantics (Op : Type) (Res : Op → Type) (ε σ ι : Type) :=
  ℕ → (o : Op) → ι → σ → Option (Except ε (Res o) × σ)

structure World (Op : Type) (Res : Op → Type) (ε α σ : Type) where
  state : σ
  threads : List (Prog Op Res ε α) := []

inductive Act (ρ ι : Type)
  /-- a request comes in -/
  | start (request : ρ)
  /-- thread `i` performs its operation, and the outside answers `input` -/
  | run (i : ℕ) (input : ι)
deriving DecidableEq, Repr

def World.step (exec : Semantics Op Res ε σ ι) (body : ρ → Prog Op Res ε α)
    (w : World Op Res ε α σ) : Act ρ ι → Option (World Op Res ε α σ)
  | .start request => some { w with threads := w.threads ++ [body request] }
  | .run i input =>
    match w.threads[i]? with
    | some (.call o next) =>
      (exec i o input w.state).map fun r =>
        { state := r.2, threads := w.threads.set i (next r.1) }
    | _ => none

/-- The operation that an action performs meets a condition on the state before it. -/
def World.Admits (ok : ℕ → Op → ι → σ → Prop) (w : World Op Res ε α σ) : Act ρ ι → Prop
  | .start _ => True
  | .run i input =>
    match w.threads[i]? with
    | some (.call o _) => ok i o input w.state
    | _ => True

theorem World.admits_of_forall {ok : ℕ → Op → ι → σ → Prop} (h : ∀ i o x s, ok i o x s)
    (w : World Op Res ε α σ) (a : Act ρ ι) : w.Admits ok a := by
  cases a with
  | start request => trivial
  | run i x =>
      simp only [World.Admits]
      split
      · exact h _ _ _ _
      · trivial

instance {ok : ℕ → Op → ι → σ → Prop} [∀ i o x s, Decidable (ok i o x s)]
    (w : World Op Res ε α σ) : ∀ a : Act ρ ι, Decidable (w.Admits ok a)
  | .start _ => isTrue trivial
  | .run i input =>
    match h : w.threads[i]? with
    | some (.call o _) =>
      decidable_of_iff (ok i o input w.state) (by simp only [World.Admits, h])
    | some (.pure _) => isTrue (by simp only [World.Admits, h])
    | some (.throw _) => isTrue (by simp only [World.Admits, h])
    | none => isTrue (by simp only [World.Admits, h])

/-- Operations that wait until a condition holds. -/
def guarded (exec : Semantics Op Res ε σ ι) (ok : ℕ → Op → ι → σ → Prop)
    [∀ i o x s, Decidable (ok i o x s)] : Semantics Op Res ε σ ι :=
  fun i o x s => if ok i o x s then exec i o x s else none

/-- An action that is admitted has nothing to wait for. -/
theorem World.step_guarded {exec : Semantics Op Res ε σ ι} {ok : ℕ → Op → ι → σ → Prop}
    [∀ i o x s, Decidable (ok i o x s)] {body : ρ → Prog Op Res ε α} {w : World Op Res ε α σ}
    {a : Act ρ ι} (h : w.Admits ok a) :
    World.step (guarded exec ok) body w a = World.step exec body w a := by
  cases a with
  | start request => rfl
  | run i x =>
      simp only [World.step]
      split
      · rename_i o next hp
        simp only [World.Admits, hp] at h
        rw [guarded, if_pos h]
      · rfl

/-- An admitted run is a run of the operations that wait. -/
theorem World.run_guarded {exec : Semantics Op Res ε σ ι} {ok : ℕ → Op → ι → σ → Prop}
    [∀ i o x s, Decidable (ok i o x s)] {body : ρ → Prog Op Res ε α} :
    ∀ (as : List (Act ρ ι)) (w : World Op Res ε α σ),
      Machine.GuardedRun (World.step exec body) (World.Admits ok) w as →
      Machine.runFrom (World.step (guarded exec ok) body) w as =
        Machine.runFrom (World.step exec body) w as := by
  intro as
  induction as with
  | nil => intro w _; rfl
  | cons a rest ih =>
      intro w h
      have hstep : World.step (guarded exec ok) body w a = World.step exec body w a :=
        World.step_guarded h.1
      simp only [Machine.runFrom, hstep]
      cases hs : World.step exec body w a with
      | none => rfl
      | some w' => exact ih w' (h.2 w' hs)

end world

/-! ### One program after the other -/

section alone

variable {σ ι : Type}

/-- A program that runs with nobody else at work; the outside adds one input to each of its
operations. -/
def runAlone (exec : Semantics Op Res ε σ ι) (i : ℕ) :
    Prog Op Res ε α → List ι → σ → Option (Except ε α × σ)
  | .pure a, [], s => some (.ok a, s)
  | .throw e, [], s => some (.error e, s)
  | .call o next, x :: xs, s => (exec i o x s).bind fun r => runAlone exec i (next r.1) xs r.2
  | _, _, _ => none

/-- However its operations are answered, the program ends with `Q`. -/
def Alone (exec : Semantics Op Res ε σ ι) (i : ℕ) (Q : Except ε α → σ → Prop) :
    Prog Op Res ε α → σ → Prop
  | .pure a, s => Q (.ok a) s
  | .throw e, s => Q (.error e) s
  | .call o next, s => ∀ x r t, exec i o x s = some (r, t) → Alone exec i Q (next r) t

variable {exec : Semantics Op Res ε σ ι} {i : ℕ}

theorem Alone.run {Q : Except ε α → σ → Prop} : ∀ {p : Prog Op Res ε α} {xs : List ι} {s t : σ}
    {r : Except ε α}, Alone exec i Q p s → runAlone exec i p xs s = some (r, t) → Q r t := by
  intro p
  induction p with
  | pure a =>
      intro xs s t r h hrun
      cases xs with
      | nil =>
          obtain ⟨rfl, rfl⟩ := Prod.mk.inj (Option.some.inj hrun)
          exact h
      | cons x xs => cases hrun
  | throw e =>
      intro xs s t r h hrun
      cases xs with
      | nil =>
          obtain ⟨rfl, rfl⟩ := Prod.mk.inj (Option.some.inj hrun)
          exact h
      | cons x xs => cases hrun
  | call o next ih =>
      intro xs s t r h hrun
      cases xs with
      | nil => cases hrun
      | cons x xs =>
          obtain ⟨⟨a, u⟩, hexec, hrest⟩ := Option.bind_eq_some_iff.mp hrun
          exact ih a (h x a u hexec) hrest

theorem Alone.mono {Q Q' : Except ε α → σ → Prop} (hQ : ∀ r s, Q r s → Q' r s) :
    ∀ {p : Prog Op Res ε α} {s : σ}, Alone exec i Q p s → Alone exec i Q' p s := by
  intro p
  induction p with
  | pure a => exact fun h => hQ _ _ h
  | throw e => exact fun h => hQ _ _ h
  | call o next ih => exact fun h x r t hexec => ih r (h x r t hexec)

/-- What the first part of a program leaves to the rest. -/
def Then (exec : Semantics Op Res ε σ ι) (i : ℕ) (Q : Except ε β → σ → Prop)
    (f : α → Prog Op Res ε β) : Except ε α → σ → Prop
  | .ok a, s => Alone exec i Q (f a) s
  | .error e, s => Q (.error e) s

theorem Alone.bind {Q : Except ε β → σ → Prop} {f : α → Prog Op Res ε β} :
    ∀ {p : Prog Op Res ε α} {s : σ}, Alone exec i (Then exec i Q f) p s →
      Alone exec i Q (p >>= f) s := by
  intro p
  induction p with
  | pure a => exact fun h => h
  | throw e => exact fun h => h
  | call o next ih => exact fun h x r t hexec => ih r (h x r t hexec)

theorem Alone.catching {Q : Except ε (Except ε α) → σ → Prop} :
    ∀ {p : Prog Op Res ε α} {s : σ}, Alone exec i (fun r => Q (.ok r)) p s →
      Alone exec i Q p.catching s := by
  intro p
  induction p with
  | pure a => exact fun h => h
  | throw e => exact fun h => h
  | call o next ih => exact fun h x r t hexec => ih r (h x r t hexec)

end alone

/-! ### Contracts -/

/-- What threads promise each other. -/
structure Contract (Op : Type) (Res : Op → Type) (ε σ ι : Type) where
  exec : Semantics Op Res ε σ ι
  Inv : σ → Prop
  /-- what the steps of the others do not disturb -/
  Rely : ℕ → σ → σ → Prop
  /-- what a thread has to know before an operation -/
  pre : ℕ → Op → σ → Prop
  rely_refl : ∀ i s, Rely i s s
  rely_trans : ∀ {i s t u}, Rely i s t → Rely i t u → Rely i s u
  pre_stable : ∀ {i o s t}, Rely i s t → pre i o s → pre i o t
  /-- what a thread that has not started finds -/
  fresh : ℕ → σ → Prop
  fresh_stable : ∀ {i s t}, Rely i s t → fresh i s → fresh i t
  step : ∀ {i o x s r t}, Inv s → pre i o s → exec i o x s = some (r, t) →
    Inv t ∧ ∀ j, j ≠ i → Rely j s t

namespace Contract

variable {σ ι ρ : Type} (C : Contract Op Res ε σ ι) {i : ℕ}

/-- From `s` on, thread `i` keeps the contract and ends with `Q`. -/
def Obeys (i : ℕ) (Q : Except ε α → σ → Prop) : Prog Op Res ε α → σ → Prop
  | .pure a, s => ∀ t, C.Rely i s t → Q (.ok a) t
  | .throw e, s => ∀ t, C.Rely i s t → Q (.error e) t
  | .call o next, s =>
    C.pre i o s ∧ ∀ s₁ x r s₂, C.Rely i s s₁ → C.Inv s₁ → C.exec i o x s₁ = some (r, s₂) →
      Obeys i Q (next r) s₂

variable {C}

/-- What a thread is about to do stays right while the others work. -/
theorem Obeys.stable {Q : Except ε α → σ → Prop} {p : Prog Op Res ε α} {s t : σ}
    (hr : C.Rely i s t) (h : C.Obeys i Q p s) : C.Obeys i Q p t := by
  cases p with
  | pure a => exact fun u hu => h u (C.rely_trans hr hu)
  | throw e => exact fun u hu => h u (C.rely_trans hr hu)
  | call o next =>
      exact ⟨C.pre_stable hr h.1, fun s₁ x r s₂ h₁ => h.2 s₁ x r s₂ (C.rely_trans hr h₁)⟩

theorem Obeys.mono {Q Q' : Except ε α → σ → Prop} (hQ : ∀ r s, Q r s → Q' r s) :
    ∀ {p : Prog Op Res ε α} {s : σ}, C.Obeys i Q p s → C.Obeys i Q' p s := by
  intro p
  induction p with
  | pure a => exact fun h t ht => hQ _ _ (h t ht)
  | throw e => exact fun h t ht => hQ _ _ (h t ht)
  | call o next ih =>
      intro s h
      exact ⟨h.1, fun s₁ x r s₂ h₁ hi he => ih r (h.2 s₁ x r s₂ h₁ hi he)⟩

/-- The rest of a program starts where the first part ends. -/
def After (C : Contract Op Res ε σ ι) (i : ℕ) (Q : Except ε β → σ → Prop)
    (f : α → Prog Op Res ε β) : Except ε α → σ → Prop
  | .ok a, s => C.Obeys i Q (f a) s
  | .error e, s => Q (.error e) s

theorem Obeys.bind {Q : Except ε β → σ → Prop} {f : α → Prog Op Res ε β} :
    ∀ {p : Prog Op Res ε α} {s : σ}, C.Obeys i (C.After i Q f) p s →
      C.Obeys i Q (p >>= f) s := by
  intro p
  induction p with
  | pure a => exact fun h => h _ (C.rely_refl _ _)
  | throw e => exact fun h => h
  | call o next ih =>
      intro s h
      exact ⟨h.1, fun s₁ x r s₂ h₁ hi he => ih r (h.2 s₁ x r s₂ h₁ hi he)⟩

/-- A value comes with `R`; a throw leaves `P`. -/
def Ends (R : α → σ → Prop) (P : σ → Prop) : Except ε α → σ → Prop
  | .ok a, s => R a s
  | .error _, s => P s

/-- A handler takes over where the program throws. -/
def Caught (C : Contract Op Res ε σ ι) (i : ℕ) (Q : Except ε α → σ → Prop)
    (h : ε → Prog Op Res ε α) : Except ε α → σ → Prop
  | .ok a, s => Q (.ok a) s
  | .error e, s => C.Obeys i Q (h e) s

theorem Obeys.tryCatch {Q : Except ε α → σ → Prop} {h : ε → Prog Op Res ε α} :
    ∀ {p : Prog Op Res ε α} {s : σ}, C.Obeys i (C.Caught i Q h) p s →
      C.Obeys i Q (p.tryCatch h) s := by
  intro p
  induction p with
  | pure a => exact fun hp => hp
  | throw e => exact fun hp => hp _ (C.rely_refl _ _)
  | call o next ih =>
      intro s hp
      exact ⟨hp.1, fun s₁ x r s₂ h₁ hi he => ih r (hp.2 s₁ x r s₂ h₁ hi he)⟩

theorem Obeys.catching {Q : Except ε (Except ε α) → σ → Prop} :
    ∀ {p : Prog Op Res ε α} {s : σ}, C.Obeys i (fun r => Q (.ok r)) p s →
      C.Obeys i Q p.catching s := by
  intro p
  induction p with
  | pure a => exact fun hp => hp
  | throw e => exact fun hp => hp
  | call o next ih =>
      intro s hp
      exact ⟨hp.1, fun s₁ x r s₂ h₁ hi he => ih r (hp.2 s₁ x r s₂ h₁ hi he)⟩

/-- One operation and the rest of the program. -/
theorem Obeys.perform {Q : Except ε β → σ → Prop} {o : Op} {f : Res o → Prog Op Res ε β} {s : σ}
    (hpre : C.pre i o s)
    (hok : ∀ s₁ x a s₂, C.Rely i s s₁ → C.Inv s₁ → C.exec i o x s₁ = some (.ok a, s₂) →
      C.Obeys i Q (f a) s₂)
    (herr : ∀ s₁ x e s₂, C.Rely i s s₁ → C.Inv s₁ → C.exec i o x s₁ = some (.error e, s₂) →
      ∀ t, C.Rely i s₂ t → Q (.error e) t) :
    C.Obeys i Q (Prog.perform o >>= f) s := by
  refine Obeys.bind ⟨hpre, fun s₁ x r s₂ h₁ hi he => ?_⟩
  cases r with
  | ok a => exact fun t ht => (hok s₁ x a s₂ h₁ hi he).stable ht
  | error e => exact herr s₁ x e s₂ h₁ hi he

/-- Every thread keeps the contract from where the world stands, and so will a new one. -/
structure Kept (C : Contract Op Res ε σ ι) (Q : ℕ → Except ε α → σ → Prop)
    (w : World Op Res ε α σ) : Prop where
  inv : C.Inv w.state
  threads : ∀ i p, w.threads[i]? = some p → C.Obeys i (Q i) p w.state
  fresh : ∀ i, w.threads.length ≤ i → C.fresh i w.state

variable {Q : ℕ → Except ε α → σ → Prop} {w w' : World Op Res ε α σ}
  {body : ρ → Prog Op Res ε α}

/-- A thread that has ended has what its program promised. -/
theorem Kept.promised (h : C.Kept Q w) {p : Prog Op Res ε α} (hp : w.threads[i]? = some p)
    (he : p.ended = true) : ∃ r, Q i r w.state := by
  have hobeys := h.threads i p hp
  cases p with
  | pure a => exact ⟨_, hobeys _ (C.rely_refl _ _)⟩
  | throw e => exact ⟨_, hobeys _ (C.rely_refl _ _)⟩
  | call o next => cases he

/-- What a run step does: a thread performs its operation. -/
theorem step_run {x : ι} (h : World.step C.exec body w (.run i x) = some w') :
    ∃ o next r t, w.threads[i]? = some (.call o next) ∧ C.exec i o x w.state = some (r, t) ∧
      w' = { state := t, threads := w.threads.set i (next r) } := by
  cases hp : w.threads[i]? with
  | none => simp [World.step, hp] at h
  | some p =>
      cases p with
      | pure a => simp [World.step, hp] at h
      | throw e => simp [World.step, hp] at h
      | call o next =>
          simp only [World.step, hp] at h
          obtain ⟨⟨r, t⟩, he, rfl⟩ := Option.map_eq_some_iff.mp h
          exact ⟨o, next, r, t, rfl, he, rfl⟩

/-- A request comes in whose program keeps the contract. -/
theorem Kept.start (h : C.Kept Q w) {p : Prog Op Res ε α}
    (hp : C.Obeys w.threads.length (Q w.threads.length) p w.state) :
    C.Kept Q { w with threads := w.threads ++ [p] } := by
  refine ⟨h.inv, fun i q hq => ?_, fun i hi => h.fresh i ?_⟩
  · rcases Procs.get_append hq with ⟨rfl, rfl⟩ | hold
    · exact hp
    · exact h.threads i q hold
  · have hlength : (w.threads ++ [p]).length ≤ i := hi
    rw [List.length_append] at hlength
    omega

/-- A thread performs its operation. -/
theorem Kept.perform {x : ι} (h : C.Kept Q w)
    (hstep : World.step C.exec body w (.run i x) = some w') : C.Kept Q w' := by
  obtain ⟨o, next, r, t, hp, he, rfl⟩ := step_run hstep
  obtain ⟨hpre, hnext⟩ := h.threads i _ hp
  obtain ⟨hinv, hrely⟩ := C.step h.inv hpre he
  have hlt : i < w.threads.length := (List.getElem?_eq_some_iff.mp hp).1
  refine ⟨hinv, fun j q hq => ?_, fun j hj => ?_⟩
  · rcases Procs.get_set hp hq with ⟨rfl, rfl⟩ | ⟨hne, hold⟩
    · exact hnext w.state x r t (C.rely_refl _ _) h.inv he
    · exact (h.threads j q hold).stable (hrely j hne)
  · have hle : w.threads.length ≤ j := by simpa using hj
    exact C.fresh_stable (hrely j (by omega)) (h.fresh j hle)

theorem Kept.step {a : Act ρ ι} (h : C.Kept Q w)
    (hbody : ∀ request i s, C.Inv s → C.fresh i s → C.Obeys i (Q i) (body request) s)
    (hstep : World.step C.exec body w a = some w') : C.Kept Q w' := by
  cases a with
  | start request =>
      obtain rfl := Option.some.inj hstep
      exact h.start (hbody request _ _ h.inv (h.fresh _ (le_refl _)))
  | run i x => exact h.perform hstep

/-- **Every interleaving of obedient programs keeps the contract.** -/
theorem Kept.run
    (hbody : ∀ request i s, C.Inv s → C.fresh i s → C.Obeys i (Q i) (body request) s)
    (as : List (Act ρ ι)) (h : C.Kept Q w)
    (hrun : Machine.runFrom (World.step C.exec body) w as = some w') : C.Kept Q w' :=
  Machine.runFrom_invariant (fun _ _ _ hk hs => hk.step hbody hs) as w w' h hrun

/-- **What every admitted operation keeps, every admitted run keeps.** -/
theorem Kept.guarded {J : σ → Prop} {ok : ℕ → Op → ι → σ → Prop}
    (hbody : ∀ request i s, C.Inv s → C.fresh i s → C.Obeys i (Q i) (body request) s)
    (hJ : ∀ i o x s r t, C.Inv s → C.pre i o s → ok i o x s → J s →
      C.exec i o x s = some (r, t) → J t)
    (as : List (Act ρ ι)) (h : C.Kept Q w) (hj : J w.state)
    (hguard : Machine.GuardedRun (World.step C.exec body) (World.Admits ok) w as)
    (hrun : Machine.runFrom (World.step C.exec body) w as = some w') : J w'.state := by
  have hstep : ∀ (w : World Op Res ε α σ) (a : Act ρ ι) w', (C.Kept Q w ∧ J w.state) →
      w.Admits ok a → World.step C.exec body w a = some w' → C.Kept Q w' ∧ J w'.state := by
    rintro w a w' ⟨hk, hj⟩ hok hs
    refine ⟨hk.step hbody hs, ?_⟩
    cases a with
    | start request =>
        obtain rfl := Option.some.inj hs
        exact hj
    | run i x =>
        obtain ⟨o, next, r, t, hp, he, rfl⟩ := step_run hs
        simp only [World.Admits, hp] at hok
        exact hJ i o x w.state r t hk.inv (hk.threads i _ hp).1 hok hj he
  exact (Machine.guarded_invariant hstep as w w' ⟨h, hj⟩ hguard hrun).2

end Contract

end Prog
