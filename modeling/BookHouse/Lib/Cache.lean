/-
Answers that are kept for a time.

A service asks a source that keeps changing, and for a while gives again what it made of the
answer instead of asking.  Between the question and the moment its answer is kept other calls
go on, so an older answer may be kept over a newer one.

What holds nevertheless: once the source gives no cause for an answer any more, no call gives
it later than the time for which answers are kept, and the time that a question may take,
after that.
-/
import BookHouse.Lib.Machine
import BookHouse.Lib.Procs
import Mathlib.Algebra.Order.Group.Int

/-- A service that keeps what it makes of the answers of a source `σ`. -/
structure Cache (σ κ ρ ν : Type) where
  /-- how long an answer is good -/
  ttl : ℤ
  clock : σ → ℤ
  /-- what the source answers -/
  load : σ → κ → ρ
  /-- what is made of the answer when it is there -/
  value : ℤ → ρ → ν
  /-- keep a value and when it was made; others may have to go -/
  keep : List (κ × ν × ℤ) → κ → ν × ℤ → List (κ × ν × ℤ)
  mem_keep : ∀ l k e x, x ∈ keep l k e → x = (k, e) ∨ x ∈ l

namespace Cache

/-- How far a call has come; when the source was asked is not kept anywhere. -/
inductive Call (κ ρ ν : Type)
  | asking (key : κ)
  | told (key : κ) (row : ρ) (asked : ℤ)
  | done (key : κ) (value : ν) (at_ : ℤ)
deriving DecidableEq

structure State (σ κ ρ ν : Type) where
  source : σ
  entries : List (κ × ν × ℤ) := []
  calls : List (Call κ ρ ν) := []

inductive Act (α κ : Type)
  /-- something happens to the source -/
  | source (a : α)
  | call (key : κ)
  /-- the source answers call `i` -/
  | load (i : ℕ)
  /-- call `i` goes on with the answer -/
  | answer (i : ℕ)
  /-- everything that is kept is dropped -/
  | drop

variable {σ κ ρ ν α : Type} [DecidableEq κ] (c : Cache σ κ ρ ν) (move : σ → α → Option σ)

def now (s : State σ κ ρ ν) : ℤ := c.clock s.source

/-- What is kept for a key and still good. -/
def hit (s : State σ κ ρ ν) (key : κ) : Option ν :=
  ((s.entries.find? (·.1 = key)).filter fun e => c.now s - e.2.2 < c.ttl).map (·.2.1)

def step (s : State σ κ ρ ν) : Act α κ → Option (State σ κ ρ ν)
  | .source a => (move s.source a).map fun source => { s with source }
  | .call key =>
    let call := match c.hit s key with
      | some v => Call.done key v (c.now s)
      | none => .asking key
    some { s with calls := s.calls ++ [call] }
  | .load i =>
    match s.calls[i]? with
    | some (.asking key) =>
      some { s with calls := s.calls.set i (.told key (c.load s.source key) (c.now s)) }
    | _ => none
  | .answer i =>
    match s.calls[i]? with
    | some (.told key row _) =>
      let v := c.value (c.now s) row
      some { s with entries := c.keep s.entries key (v, c.now s),
                    calls := s.calls.set i (.done key v (c.now s)) }
    | _ => none
  | .drop => some { s with entries := [] }

/-- A call goes on at most `delay` after the source was asked. -/
def Quick (delay : ℤ) (s : State σ κ ρ ν) : Act α κ → Prop
  | .answer i => ∀ key row asked, s.calls[i]? = some (Call.told key row asked) →
      c.now s - asked ≤ delay
  | _ => True

instance (delay : ℤ) (s : State σ κ ρ ν) : ∀ a : Act α κ, Decidable (c.Quick delay s a)
  | .answer i =>
    match h : s.calls[i]? with
    | some (.told _ _ asked) =>
      decidable_of_iff (c.now s - asked ≤ delay)
        ⟨fun hle _ _ _ hi => by cases h.symm.trans hi; exact hle, fun hq => hq _ _ _ h⟩
    | some (.asking _) => isTrue fun _ _ _ hi => by cases h.symm.trans hi
    | some (.done _ _ _) => isTrue fun _ _ _ hi => by cases h.symm.trans hi
    | none => isTrue fun _ _ _ hi => by cases h.symm.trans hi
  | .source _ => isTrue trivial
  | .call _ => isTrue trivial
  | .load _ => isTrue trivial
  | .drop => isTrue trivial

/-- Nothing was made later than now. -/
structure Past (s : State σ κ ρ ν) : Prop where
  entries : ∀ e ∈ s.entries, e.2.2 ≤ c.now s
  told : ∀ (i : ℕ) key row asked, s.calls[i]? = some (Call.told key row asked) → asked ≤ c.now s
  done : ∀ (i : ℕ) key value at_, s.calls[i]? = some (Call.done key value at_) → at_ ≤ c.now s

variable {c move} {s t : State σ κ ρ ν} {v delay : ℤ} {key : κ} {bad : ν → Prop}

/-- The source gives no cause for a bad answer, whenever the call goes on. -/
def Clear (c : Cache σ κ ρ ν) (bad : ν → Prop) (key : κ) (s : State σ κ ρ ν) : Prop :=
  ∀ now, c.now s ≤ now → ¬ bad (c.value now (c.load s.source key))

/-- What is left of the time before `v`. -/
structure Fading (c : Cache σ κ ρ ν) (bad : ν → Prop) (key : κ) (v delay : ℤ)
    (s : State σ κ ρ ν) : Prop where
  now : v ≤ c.now s
  entries : ∀ e ∈ s.entries, e.1 = key → bad e.2.1 → e.2.2 ≤ v + delay
  told : ∀ (i : ℕ) row asked, s.calls[i]? = some (Call.told key row asked) →
    asked ≤ v ∨ ∀ now, c.now s ≤ now → ¬ bad (c.value now row)
  done : ∀ (i : ℕ) value at_, s.calls[i]? = some (Call.done key value at_) → bad value →
    at_ < v + delay + c.ttl

/-- Time only moves forward. -/
def Forward (c : Cache σ κ ρ ν) (move : σ → α → Option σ) : Prop :=
  ∀ s a t, move s a = some t → c.clock s ≤ c.clock t

theorem hit_entry {value : ν} (h : c.hit s key = some value) :
    ∃ kept, (key, value, kept) ∈ s.entries ∧ c.now s - kept < c.ttl := by
  unfold hit at h
  obtain ⟨e, he, rfl⟩ := Option.map_eq_some_iff.mp h
  obtain ⟨hfind, hgood⟩ := Option.filter_eq_some_iff.mp he
  have hkey : e.1 = key := by simpa using List.find?_some hfind
  refine ⟨e.2.2, ?_, by simpa using hgood⟩
  rw [← hkey]
  exact List.mem_of_find?_eq_some hfind

theorem Past.step (hforward : Forward c move) {a : Act α κ} (h : c.Past s)
    (hstep : c.step move s a = some t) : c.Past t := by
  cases a with
  | source a =>
      obtain ⟨source, hmove, rfl⟩ := Option.map_eq_some_iff.mp hstep
      have hle : c.now s ≤ c.now { s with source } := hforward _ _ _ hmove
      exact ⟨fun e he => (h.entries e he).trans hle,
        fun i k r a hi => (h.told i k r a hi).trans hle,
        fun i k x a hi => (h.done i k x a hi).trans hle⟩
  | call k =>
      obtain rfl := Option.some.inj hstep
      refine ⟨h.entries, fun i k' r a hi => ?_, fun i k' x a hi => ?_⟩
      · rcases Procs.get_append hi with ⟨rfl, hcall⟩ | hold
        · split at hcall <;> cases hcall
        · exact h.told i k' r a hold
      · rcases Procs.get_append hi with ⟨rfl, hcall⟩ | hold
        · split at hcall
          · cases hcall
            exact le_refl _
          · cases hcall
        · exact h.done i k' x a hold
  | load i =>
      simp only [Cache.step] at hstep
      split at hstep
      next k hi =>
        obtain rfl := Option.some.inj hstep
        refine ⟨h.entries, fun j k' r a hj => ?_, fun j k' x a hj => ?_⟩
        · rcases Procs.get_set hi hj with ⟨rfl, heq⟩ | ⟨-, hold⟩
          · cases heq
            exact le_refl _
          · exact h.told j k' r a hold
        · rcases Procs.get_set hi hj with ⟨rfl, heq⟩ | ⟨-, hold⟩
          · cases heq
          · exact h.done j k' x a hold
      next => cases hstep
  | answer i =>
      simp only [Cache.step] at hstep
      split at hstep
      next k row asked hi =>
        obtain rfl := Option.some.inj hstep
        refine ⟨fun e he => ?_, fun j k' r a hj => ?_, fun j k' x a hj => ?_⟩
        · rcases c.mem_keep _ _ _ _ he with rfl | hold
          · exact le_refl _
          · exact h.entries e hold
        · rcases Procs.get_set hi hj with ⟨rfl, heq⟩ | ⟨-, hold⟩
          · cases heq
          · exact h.told j k' r a hold
        · rcases Procs.get_set hi hj with ⟨rfl, heq⟩ | ⟨-, hold⟩
          · cases heq
            exact le_refl _
          · exact h.done j k' x a hold
      next => cases hstep
  | drop =>
      obtain rfl := Option.some.inj hstep
      exact ⟨fun e he => by simp at he, h.told, h.done⟩

omit [DecidableEq κ] in
/-- The past is all there is to fade. -/
theorem Past.fading (h : c.Past s) (hdelay : 0 ≤ delay) (httl : 0 < c.ttl) :
    Fading c bad key (c.now s) delay s where
  now := le_refl _
  entries e he _ _ := (h.entries e he).trans (by omega)
  told i row asked hi := .inl (h.told i key row asked hi)
  done i value at_ hi _ := by
    have := h.done i key value at_ hi
    omega

theorem Fading.step (hforward : Forward c move) {a : Act α κ}
    (httl : 0 < c.ttl) (hclear : Clear c bad key s) (hquick : c.Quick delay s a)
    (h : Fading c bad key v delay s) (hstep : c.step move s a = some t) :
    Fading c bad key v delay t := by
  cases a with
  | source a =>
      obtain ⟨source, hmove, rfl⟩ := Option.map_eq_some_iff.mp hstep
      have hle : c.now s ≤ c.now { s with source } := hforward _ _ _ hmove
      refine ⟨h.now.trans hle, h.entries, fun i r a hi => ?_, h.done⟩
      rcases h.told i r a hi with hold | hnot
      · exact .inl hold
      · exact .inr fun now hnow => hnot now (hle.trans hnow)
  | call k =>
      obtain rfl := Option.some.inj hstep
      refine ⟨h.now, h.entries, fun i r a hi => ?_, fun i x a hi hbad => ?_⟩
      · rcases Procs.get_append hi with ⟨rfl, hcall⟩ | hold
        · split at hcall <;> cases hcall
        · exact h.told i r a hold
      · rcases Procs.get_append hi with ⟨rfl, hcall⟩ | hold
        · split at hcall
          next hhit =>
            cases hcall
            -- what is given again was kept in time
            obtain ⟨kept, hmem, hgood⟩ := hit_entry hhit
            have := h.entries _ hmem rfl hbad
            dsimp only at this
            have hnow : c.now { s with calls := s.calls ++ [Call.done key x (c.now s)] } =
              c.now s := rfl
            omega
          next => cases hcall
        · exact h.done i x a hold hbad
  | load i =>
      simp only [Cache.step] at hstep
      split at hstep
      next k hi =>
        obtain rfl := Option.some.inj hstep
        refine ⟨h.now, h.entries, fun j r a hj => ?_, fun j x a hj hbad => ?_⟩
        · rcases Procs.get_set hi hj with ⟨rfl, heq⟩ | ⟨-, hold⟩
          · cases heq
            exact .inr hclear
          · exact h.told j r a hold
        · rcases Procs.get_set hi hj with ⟨rfl, heq⟩ | ⟨-, hold⟩
          · cases heq
          · exact h.done j x a hold hbad
      next => cases hstep
  | answer i =>
      have hintime := hquick
      simp only [Cache.step] at hstep
      split at hstep
      next k row asked hi =>
        obtain rfl := Option.some.inj hstep
        -- a bad answer was asked for before `v`
        have hmade : k = key → bad (c.value (c.now s) row) → c.now s ≤ v + delay := by
          rintro rfl hbad
          rcases h.told i row asked hi with hold | hnot
          · have := hintime k row asked hi
            omega
          · exact absurd hbad (hnot _ (le_refl _))
        refine ⟨h.now, fun e he hkey hbad => ?_, fun j r a hj => ?_, fun j x a hj hbad => ?_⟩
        · rcases c.mem_keep _ _ _ _ he with rfl | hold
          · exact hmade hkey hbad
          · exact h.entries e hold hkey hbad
        · rcases Procs.get_set hi hj with ⟨rfl, heq⟩ | ⟨-, hold⟩
          · cases heq
          · exact h.told j r a hold
        · rcases Procs.get_set hi hj with ⟨rfl, heq⟩ | ⟨-, hold⟩
          · cases heq
            have := hmade rfl hbad
            omega
          · exact h.done j x a hold hbad
      next => cases hstep
  | drop =>
      obtain rfl := Option.some.inj hstep
      exact ⟨h.now, fun e he => by simp at he, h.told, h.done⟩

/-- What is kept or given is of a kind. -/
structure Made (P : ν → Prop) (s : State σ κ ρ ν) : Prop where
  entries : ∀ e ∈ s.entries, P e.2.1
  done : ∀ (i : ℕ) key value at_, s.calls[i]? = some (Call.done key value at_) → P value

theorem Made.step {P : ν → Prop} (hP : ∀ now row, P (c.value now row)) {a : Act α κ}
    (h : Made P s) (hstep : c.step move s a = some t) : Made P t := by
  cases a with
  | source a =>
      obtain ⟨source, -, rfl⟩ := Option.map_eq_some_iff.mp hstep
      exact ⟨h.entries, h.done⟩
  | call k =>
      obtain rfl := Option.some.inj hstep
      refine ⟨h.entries, fun i k' x a hi => ?_⟩
      rcases Procs.get_append hi with ⟨rfl, hcall⟩ | hold
      · split at hcall
        next hhit =>
          cases hcall
          obtain ⟨kept, hmem, -⟩ := hit_entry hhit
          exact h.entries _ hmem
        next => cases hcall
      · exact h.done i k' x a hold
  | load i =>
      simp only [Cache.step] at hstep
      split at hstep
      next k hi =>
        obtain rfl := Option.some.inj hstep
        refine ⟨h.entries, fun j k' x a hj => ?_⟩
        rcases Procs.get_set hi hj with ⟨rfl, heq⟩ | ⟨-, hold⟩
        · cases heq
        · exact h.done j k' x a hold
      next => cases hstep
  | answer i =>
      simp only [Cache.step] at hstep
      split at hstep
      next k row asked hi =>
        obtain rfl := Option.some.inj hstep
        refine ⟨fun e he => ?_, fun j k' x a hj => ?_⟩
        · rcases c.mem_keep _ _ _ _ he with rfl | hold
          · exact hP _ _
          · exact h.entries e hold
        · rcases Procs.get_set hi hj with ⟨rfl, heq⟩ | ⟨-, hold⟩
          · cases heq
            exact hP _ _
          · exact h.done j k' x a hold
      next => cases hstep
  | drop =>
      obtain rfl := Option.some.inj hstep
      exact ⟨fun e he => by simp at he, h.done⟩

theorem made_run {P : ν → Prop} (hP : ∀ now row, P (c.value now row)) (as : List (Act α κ))
    (h : Made P s) (hrun : Machine.runFrom (c.step move) s as = some t) : Made P t :=
  Machine.runFrom_invariant (fun _ _ _ hm hs => hm.step hP hs) as s t h hrun

theorem past_run (hforward : Forward c move) (as : List (Act α κ)) (h : c.Past s)
    (hrun : Machine.runFrom (c.step move) s as = some t) : c.Past t :=
  Machine.runFrom_invariant (fun _ _ _ hp hs => hp.step hforward hs) as s t h hrun

/-- **An answer that the source gives no cause for any more is given no longer than answers are
kept and a question takes.** -/
theorem bad_fades (hforward : Forward c move) (httl : 0 < c.ttl) :
    ∀ (as : List (Act α κ)) (s t : State σ κ ρ ν), Fading c bad key v delay s →
      Machine.Along (c.step move) (Clear c bad key) s as →
      Machine.GuardedRun (c.step move) (c.Quick delay) s as →
      Machine.runFrom (c.step move) s as = some t → Fading c bad key v delay t := by
  intro as
  induction as with
  | nil =>
      intro s t h _ _ hrun
      obtain rfl := Option.some.inj hrun
      exact h
  | cons a rest ih =>
      intro s t h hclear hquick hrun
      obtain ⟨s', hs', hrest⟩ := Machine.runFrom_cons hrun
      exact ih s' t (h.step hforward httl hclear.1 hquick.1 hs') (hclear.2 s' hs')
        (hquick.2 s' hs') hrest

end Cache
