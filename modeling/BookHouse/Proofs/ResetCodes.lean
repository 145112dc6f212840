/-
Which codes a reset accepts.

A call that runs alone leaves the codes as they were, or it issues one, or it consumes the one
that it found (`Left`).  What it finds is the newest of the codes that are alive, not the newest
that was issued, so an older code is accepted again once a newer one is consumed.  Where that
cannot happen (`inOrder`), each reset takes the code issued last, and after it only later ones.
-/
import BookHouse.Auth.ResetMachine
import BookHouse.Lib.Sorting
import BookHouse.Proofs.AuthCalls

namespace BookHouse

open AuthCall AuthDesk Prog

/-- The code is the same, whatever has been tried with it. -/
structure VerificationCode.Same (c c' : VerificationCode) : Prop where
  userId : c'.userId = c.userId
  createdAt : c'.createdAt = c.createdAt
  expiresAt : c'.expiresAt = c.expiresAt

theorem VerificationCode.Same.refl (c : VerificationCode) : c.Same c := ⟨rfl, rfl, rfl⟩

theorem VerificationCode.Same.trans {a b c : VerificationCode} (h : a.Same b) (h' : b.Same c) :
    a.Same c :=
  ⟨h'.userId.trans h.userId, h'.createdAt.trans h.createdAt, h'.expiresAt.trans h.expiresAt⟩

/-- A code lives for ten minutes from when it was issued. -/
structure VerificationCode.Issued (now : Instant) (c : VerificationCode) : Prop where
  past : c.createdAt ≤ now
  life : c.expiresAt = c.createdAt + otpTtlMin * minute

@[simp] theorem consumedIn_append (a b : List AuthEvent) :
    consumedIn (a ++ b) = consumedIn a ++ consumedIn b := List.filterMap_append

/-! ### A call that runs alone -/

section alone

variable {host : AuthHost} {i : TxId} {s₀ s t : AuthDesk} {p : CodeId → Option VerificationCode}
  {w : List AuthEvent} {α β : Type} {Q : Except AuthFault β → AuthDesk → Prop}

/-- The call has committed nothing about codes; its transaction has written the versions `p` and
done `w`. -/
structure Handling (i : TxId) (s₀ : AuthDesk) (p : CodeId → Option VerificationCode)
    (w : List AuthEvent) (s : AuthDesk) : Prop where
  now : s₀.now ≤ s.now
  committed : ∀ k, s.codes.committed k = s₀.codes.committed k
  own : ∀ k, s.codes.own i k = (p k).map some
  others : ∀ j k, j ≠ i → s.codes.own j k = none
  next : s₀.codes.next ≤ s.codes.next
  log : ∃ new, s.log = new ++ s₀.log ∧ consumedIn new = []
  work : s.work = w.map (Prod.mk i)

/-- What is left of the codes when a call has ended: those of `used` are consumed. -/
structure Left (s₀ : AuthDesk) (used : List CodeId) (t : AuthDesk) : Prop where
  now : s₀.now ≤ t.now
  settled : ∀ j k, t.codes.own j k = none
  work : t.work = []
  next : s₀.codes.next ≤ t.codes.next
  log : ∃ new, t.log = new ++ s₀.log ∧ consumedIn new = used
  rows : ∀ k c, s₀.codes.committed k = some c → ∃ c', t.codes.committed k = some c' ∧ c.Same c' ∧
    (c.consumedAt.isSome = true ∨ k ∈ used → c'.consumedAt.isSome = true)
  fresh : ∀ k c', t.codes.committed k = some c' → s₀.codes.committed k = none →
    s₀.codes.next ≤ k ∧ c'.Issued t.now

/-- Nobody is at work on a code. -/
structure CodesAtRest (s : AuthDesk) : Prop where
  settled : ∀ j k, s.codes.own j k = none
  work : s.work = []

theorem Handling.start (h : CodesAtRest s) (i : TxId) : Handling i s (fun _ => none) [] s where
  now := le_refl _
  committed _ := rfl
  own k := h.settled i k
  others j k _ := h.settled j k
  next := le_refl _
  log := ⟨[], rfl, rfl⟩
  work := h.work

theorem Handling.tick (h : Handling i s₀ p w s) (ms : ℕ) : Handling i s₀ p w (s.tick ms) :=
  ⟨h.now.trans (le_add_of_nonneg_right (Int.natCast_nonneg ms)), h.committed, h.own, h.others,
    h.next, h.log, h.work⟩

theorem consumedIn_notes (o : AuthOp) (now : Instant) : consumedIn (o.notes now) = [] := by
  cases o with
  | updateUser id w =>
      cases w with
      | access blocked => cases blocked <;> rfl
      | _ => rfl
  | _ => rfl

theorem consumedIn_events (id : UserId) (now : Instant) (w : UserWrite) :
    consumedIn (w.events id now) = [] := by
  cases w with
  | access blocked => cases blocked <;> rfl
  | _ => rfl

theorem consumedIn_keeps {o : AuthOp} (ho : o.onCodes = false) (now : Instant) :
    consumedIn (o.keeps now) = [] := by
  cases o with
  | updateUserTx id w => exact consumedIn_events id now w
  | consumeTx id => cases ho
  | _ => rfl

/-- A statement about something else. -/
theorem Handling.perform (h : Handling i s₀ p w s) {o : AuthOp} {a : o.Res} {x : String}
    (hends : o.ends = false) (ho : o.onCodes = false) (hp : o.perform host i x s = some (a, t)) :
    ∃ w', Handling i s₀ p w' t ∧ consumedIn w' = consumedIn w ∧
      ((∀ now, o.keeps now = []) → w' = w) := by
  have hdid := o.perform_did hends hp
  have hcodes := hdid.codes ho
  obtain ⟨new, hlog, hnew⟩ := h.log
  have hlog' : ∃ new, t.log = new ++ s₀.log ∧ consumedIn new = [] := by
    rcases hdid.log with hsame | hnotes
    · exact ⟨new, hsame.trans hlog, hnew⟩
    · refine ⟨o.notes s.now ++ new, by rw [hnotes, hlog, List.append_assoc], ?_⟩
      rw [consumedIn_append, consumedIn_notes, hnew]
      rfl
  have hnow : s₀.now ≤ t.now := h.now.trans (le_of_eq hdid.now.symm)
  have hkept : ∀ w', t.work = w'.map (Prod.mk i) → Handling i s₀ p w' t := fun w' hw =>
    ⟨hnow, fun k => by rw [hcodes, h.committed], fun k => by rw [hcodes, h.own],
      fun j k hj => by rw [hcodes, h.others j k hj], by rw [hcodes]; exact h.next, hlog', hw⟩
  rcases hdid.work with hsame | hkeeps
  · exact ⟨w, hkept w (hsame.trans h.work), rfl, fun _ => rfl⟩
  · refine ⟨o.keeps s.now ++ w, hkept _ ?_, ?_, fun hnone => by rw [hnone]; rfl⟩
    · rw [hkeeps, h.work, List.map_append]
    · rw [consumedIn_append, consumedIn_keeps ho]
      rfl

theorem Handling.dropped (h : Handling i s₀ p w s) {o : AuthOp} (ho : o ≠ .commit) :
    Handling i s₀ p w (o.dropped i s) := by
  cases o with
  | commit => exact absurd rfl ho
  | createSession user parent hash =>
      exact ⟨h.now, h.committed, h.own, h.others, h.next, h.log, h.work⟩
  | _ => exact h

/-- A statement of a call that runs alone. -/
theorem alone_step {o : AuthOp} {f : o.Res → AuthCall β} (ho : o ≠ .commit)
    (h : Handling i s₀ p w s)
    (hok : ∀ u x a t, Handling i s₀ p w u → o.perform host i x u = some (a, t) →
      Alone (AuthOp.exec host) i Q (f a) t)
    (herr : ∀ fault t, Handling i s₀ p w t → Q (.error fault) t) :
    Alone (AuthOp.exec host) i Q (AuthCall.ask o >>= f) s := by
  refine Alone.bind fun x r t hexec => ?_
  rcases AuthOp.exec_cases hexec with ⟨fault, rfl, rfl⟩ | ⟨a, rfl, hperform⟩
  · exact herr _ _ ((h.tick x.elapsed).dropped ho)
  · exact hok _ _ a t (h.tick x.elapsed) hperform

/-- One that reads, compares or draws. -/
theorem alone_look {o : AuthOp} {f : o.Res → AuthCall β} (hends : o.ends = false)
    (ho : o.onCodes = false) (hkeeps : ∀ now, o.keeps now = []) (h : Handling i s₀ p w s)
    (hok : ∀ a t, Handling i s₀ p w t → Alone (AuthOp.exec host) i Q (f a) t)
    (herr : ∀ fault t, Handling i s₀ p w t → Q (.error fault) t) :
    Alone (AuthOp.exec host) i Q (AuthCall.ask o >>= f) s := by
  have hcommit : o ≠ .commit := by
    rintro rfl
    cases ho
  refine alone_step hcommit h (fun u x a t hu hp => ?_) herr
  obtain ⟨w', hw, -, hsame⟩ := hu.perform hends ho hp
  obtain rfl := hsame hkeeps
  exact hok a t hw

/-! #### How it ends -/

/-- Nothing was written. -/
theorem Handling.left (h : Handling i s₀ (fun _ => none) [] s) : Left s₀ [] s where
  now := h.now
  settled j k := by
    by_cases hj : j = i
    · rw [hj, h.own]
      rfl
    · exact h.others j k hj
  work := h.work
  next := h.next
  log := h.log
  rows k c hc := ⟨c, (h.committed k).trans hc, .refl c, fun hused => hused.resolve_right (by simp)⟩
  fresh k c' hc' hnone := by
    rw [h.committed, hnone] at hc'
    cases hc'

theorem work_filter (hwork : s.work = w.map (Prod.mk i)) :
    s.work.filter (fun x => decide (x.1 ≠ i)) = [] := by
  rw [hwork, List.filter_eq_nil_iff]
  rintro x hx
  obtain ⟨e, -, rfl⟩ := List.mem_map.mp hx
  simp

theorem workOf_eq (hwork : s.work = w.map (Prod.mk i)) : s.workOf i = w := by
  have hall : (w.map (Prod.mk i)).filter (fun x => decide (x.1 = i)) = w.map (Prod.mk i) := by
    rw [List.filter_eq_self]
    rintro x hx
    obtain ⟨e, -, rfl⟩ := List.mem_map.mp hx
    simp
  rw [workOf, hwork, hall, List.map_map]
  exact List.map_id w

/-- A transaction that is rolled back has written nothing. -/
theorem Handling.rollback (h : Handling i s₀ p w s) : Left s₀ [] (s.rollback i) where
  now := h.now
  settled j k := by
    by_cases hj : j = i
    · subst hj
      exact Table.own_rollback_self
    · exact (Table.own_rollback_other hj).trans (h.others j k hj)
  work := work_filter h.work
  next := h.next
  log := h.log
  rows k c hc := ⟨c, (h.committed k).trans hc, .refl c, fun hused => hused.resolve_right (by simp)⟩
  fresh k c' hc' hnone := by
    have hsame : s.codes.committed k = some c' := hc'
    rw [h.committed, hnone] at hsame
    cases hsame

/-- What the versions of a transaction may be: codes consumed, or new ones. -/
def Writable (s₀ : AuthDesk) (used : List CodeId) (now : Instant)
    (p : CodeId → Option VerificationCode) : Prop :=
  ∀ k, (∀ c', p k = some c' →
      (∃ c at_, s₀.codes.committed k = some c ∧ c' = c.consume at_) ∨
        (s₀.codes.committed k = none ∧ s₀.codes.next ≤ k ∧ c'.Issued now)) ∧
    (k ∈ used → ∃ c', p k = some c')

theorem Handling.commit (h : Handling i s₀ p w s) (hp : Writable s₀ (consumedIn w) s.now p) :
    Left s₀ (consumedIn w) (s.commit i) := by
  have hseen : ∀ k, (s.commit i).codes.committed k = (p k).or (s₀.codes.committed k) := by
    intro k
    show s.codes.seen i k = _
    cases hpk : p k with
    | none =>
        rw [Table.seen_of_own_none (by rw [h.own, hpk]; rfl), h.committed]
        rfl
    | some c' =>
        have hown : s.codes.own i k = some (some c') := by
          rw [h.own, hpk]
          rfl
        rw [Table.seen_of_own hown]
        rfl
  constructor
  case now => exact h.now
  case settled =>
    intro j k
    by_cases hj : j = i
    · subst hj
      exact Table.own_commit_self
    · exact (Table.own_commit_other hj).trans (h.others j k hj)
  case work => exact work_filter h.work
  case next => exact h.next
  case log =>
    obtain ⟨new, hlog, hnew⟩ := h.log
    refine ⟨(s.lost i).map .ownerLost ++ (w ++ new), ?_, ?_⟩
    · show (s.lost i).map AuthEvent.ownerLost ++ (s.workOf i ++ s.log) = _
      rw [workOf_eq h.work, hlog, List.append_assoc, List.append_assoc]
    · have hlost : consumedIn ((s.lost i).map .ownerLost) = [] := by
        rw [consumedIn, List.filterMap_map, List.filterMap_eq_nil_iff]
        exact fun _ _ => rfl
      rw [consumedIn_append, consumedIn_append, hlost, hnew, List.append_nil]
      rfl
  case rows =>
    intro k c hc
    rw [hseen]
    obtain ⟨hwritten, hused⟩ := hp k
    cases hpk : p k with
    | none =>
        refine ⟨c, hc, .refl c, fun hkept => hkept.resolve_right fun hk => ?_⟩
        obtain ⟨c', hc'⟩ := hused hk
        rw [hpk] at hc'
        cases hc'
    | some c' =>
        rcases hwritten c' hpk with ⟨c₁, at_, hc₁, rfl⟩ | ⟨hnone, -, -⟩
        · obtain rfl := Option.some.inj (hc₁.symm.trans hc)
          exact ⟨_, rfl, ⟨rfl, rfl, rfl⟩, fun _ => rfl⟩
        · rw [hnone] at hc
          cases hc
  case fresh =>
    intro k c' hc' hnone
    rw [hseen, hnone, Option.or_none] at hc'
    rcases (hp k).1 c' hc' with ⟨c, at_, hc, -⟩ | ⟨-, hle, hissued⟩
    · rw [hnone] at hc
      cases hc
    · exact ⟨hle, hissued⟩

/-! #### Its transaction -/

/-- So the transaction of a call ends, … -/
def InTx (i : TxId) (s₀ : AuthDesk) (used : List CodeId) : Except AuthFault α → AuthDesk → Prop
  | .ok _, t => ∃ p w, Handling i s₀ p w t ∧ consumedIn w = used ∧ Writable s₀ used t.now p
  | .error _, t => ∃ p w, Handling i s₀ p w t

/-- … and so what it was called for. -/
def LeftBy (s₀ : AuthDesk) (used : List CodeId) : Except AuthFault α → AuthDesk → Prop
  | .ok _, t => Left s₀ used t
  | .error _, t => Left s₀ [] t

theorem Writable.later {used : List CodeId} {now later : Instant} (h : Writable s₀ used now p)
    (hle : now ≤ later) : Writable s₀ used later p := by
  refine fun k => ⟨fun c' hc' => ?_, (h k).2⟩
  rcases (h k).1 c' hc' with hused | ⟨hnone, hnext, hissued⟩
  · exact .inl hused
  · exact .inr ⟨hnone, hnext, hissued.past.trans hle, hissued.life⟩

theorem alone_inTx {body : AuthCall α} {used : List CodeId}
    (h : Alone (AuthOp.exec host) i (InTx i s₀ used) body s) :
    Alone (AuthOp.exec host) i (LeftBy s₀ used) (tx body) s := by
  refine Alone.bind (Alone.catching (Alone.mono (fun r t ht => ?_) h))
  cases r with
  | ok a =>
      obtain ⟨p, w, hw, rfl, hp⟩ := ht
      refine Alone.bind fun x r u hexec => ?_
      have htick := hw.tick x.elapsed
      rcases AuthOp.exec_cases hexec with ⟨fault, rfl, rfl⟩ | ⟨a', rfl, hperform⟩
      · exact htick.rollback
      · obtain ⟨-, rfl⟩ := Prod.mk.inj (Option.some.inj hperform)
        exact htick.commit (hp.later (le_add_of_nonneg_right (Int.natCast_nonneg x.elapsed)))
  | error fault =>
      obtain ⟨p, w, hw⟩ := ht
      refine Alone.bind fun x r u hexec => ?_
      obtain ⟨rfl, rfl⟩ := AuthOp.exec_rollback hexec
      exact (hw.tick x.elapsed).rollback

/-- A code is issued. -/
theorem alone_createCode {id : UserId} {target codeHash : String}
    (h : Handling i s₀ (fun _ => none) [] s) :
    Alone (AuthOp.exec host) i (InTx i s₀ []) (AuthCall.ask (.createCodeTx id target codeHash)) s := by
  intro x r t hexec
  have htick := h.tick x.elapsed
  rcases AuthOp.exec_cases hexec with ⟨fault, rfl, rfl⟩ | ⟨a, rfl, hp⟩
  · exact ⟨_, _, htick⟩
  obtain ⟨-, rfl⟩ := Prod.mk.inj (Option.some.inj hp)
  generalize hu : s.tick x.elapsed = u at htick
  have hnew : s₀.codes.committed u.codes.next = none := by
    rw [← htick.committed, Table.committed_next]
  obtain ⟨code, hcode, hissued⟩ : ∃ code : VerificationCode,
      (u.createCodeTx i id target codeHash).codes = u.codes.insert i code ∧ code.Issued u.now :=
    ⟨_, rfl, le_refl _, rfl⟩
  refine ⟨Function.update (fun _ => none) u.codes.next (some code), [],
    ⟨htick.now, fun k => ?_, fun k => ?_, fun j k hj => ?_, ?_, htick.log, htick.work⟩, rfl,
    fun k => ⟨fun c' hc' => .inr ?_, fun hk => by cases hk⟩⟩
  · rw [hcode]
    exact htick.committed k
  · rw [hcode]
    by_cases hk : k = u.codes.next
    · subst hk
      rw [Table.own_insert_self, Function.update_self]
      rfl
    · rw [Table.own_insert_of_ne hk, Function.update_of_ne hk, htick.own]
  · rw [hcode, Table.own_insert_other hj]
    exact htick.others j k hj
  · rw [hcode]
    exact htick.next.trans (Nat.le_succ _)
  · by_cases hk : k = u.codes.next
    · subst hk
      rw [Function.update_self] at hc'
      obtain rfl := Option.some.inj hc'
      exact ⟨hnew, htick.next, hissued⟩
    · rw [Function.update_of_ne hk] at hc'
      cases hc'

/-- A code is consumed, and the rest of the transaction is about other things. -/
theorem alone_consume {c : CodeId} {f : AuthCall α} (h : Handling i s₀ (fun _ => none) [] s)
    (hrest : ∀ p w t, Handling i s₀ p w t → consumedIn w = [c] → Writable s₀ [c] t.now p →
      Alone (AuthOp.exec host) i (InTx i s₀ [c]) f t) :
    Alone (AuthOp.exec host) i (InTx i s₀ [c])
      (AuthCall.ask (.consumeTx c) >>= fun found => mustFind found >>= fun _ => f) s := by
  refine alone_step (by simp) h (fun u x found t hu hp => ?_) fun _ t ht => ⟨_, _, ht⟩
  rcases consumeTx_some hp with ⟨-, rfl, rfl⟩ | ⟨code, codes, hseen, rfl, hwrite, rfl⟩
  · exact ⟨_, _, hu⟩
  have hcode : s₀.codes.committed c = some code := by
    rw [← hu.committed, ← Table.seen_of_own_none (hu.own c)]
    exact hseen
  refine hrest (Function.update (fun _ => none) c (some (code.consume u.now))) [.consumed c] _
    ⟨hu.now, fun k => ?_, fun k => ?_, fun j k hj => ?_, ?_, hu.log, ?_⟩ rfl
    fun k => ⟨fun c' hc' => .inl ?_, fun hk => ?_⟩
  · exact (Table.committed_update hwrite).trans (hu.committed k)
  · show codes.own i k = _
    rw [Table.own_update_self hwrite, Table.seen_of_own_none (hu.own k), hu.committed]
    by_cases hk : k = c
    · subst hk
      rw [hcode, Option.bind_some, onRow, if_pos rfl, Function.update_self]
      rfl
    · have hnone : (s₀.codes.committed k).bind (onRow c (VerificationCode.consume u.now) k) = none := by
        cases s₀.codes.committed k with
        | none => rfl
        | some row => exact AuthOp.onRow_none hk
      rw [hnone, Function.update_of_ne hk]
      exact hu.own k
  · exact (Table.own_update_other hwrite hj).trans (hu.others j k hj)
  · exact hu.next.trans (Table.next_update hwrite).ge
  · show [(i, AuthEvent.consumed c)] ++ u.work = _
    rw [hu.work]
    rfl
  · by_cases hk : k = c
    · subst hk
      rw [Function.update_self] at hc'
      exact ⟨code, u.now, hcode, (Option.some.inj hc').symm⟩
    · rw [Function.update_of_ne hk] at hc'
      cases hc'
  · obtain rfl := List.mem_singleton.mp hk
    exact ⟨_, Function.update_self ..⟩

/-- What else a transaction does. -/
theorem alone_more {o : AuthOp} {f : o.Res → AuthCall α} {used : List CodeId}
    (hends : o.ends = false) (ho : o.onCodes = false) (h : Handling i s₀ p w s)
    (hw : consumedIn w = used) (hp : Writable s₀ used s.now p)
    (hrest : ∀ a w t, Handling i s₀ p w t → consumedIn w = used → Writable s₀ used t.now p →
      Alone (AuthOp.exec host) i (InTx i s₀ used) (f a) t) :
    Alone (AuthOp.exec host) i (InTx i s₀ used) (AuthCall.ask o >>= f) s := by
  have hcommit : o ≠ .commit := by
    rintro rfl
    cases ho
  refine Alone.bind fun x r t hexec => ?_
  have htick := h.tick x.elapsed
  rcases AuthOp.exec_cases hexec with ⟨fault, rfl, rfl⟩ | ⟨a, rfl, hperform⟩
  · exact ⟨_, _, htick.dropped hcommit⟩
  · obtain ⟨w', hw', hsame, -⟩ := htick.perform hends ho hperform
    refine hrest a w' t hw' (hsame.trans hw) (hp.later ?_)
    rw [(o.perform_did hends hperform).now]
    exact le_add_of_nonneg_right (Int.natCast_nonneg x.elapsed)

end alone

/-! ### The two calls -/

section calls

-- no call is run here, so what is typed in need not be read
attribute [local irreducible] contactOf trim

variable {host : AuthHost} {i : TxId} {s t : AuthDesk} {β : Type}
  {Q : Except AuthFault β → AuthDesk → Prop}

/-- The account is looked up first. -/
theorem alone_account {identifier : String} {f : Option (UserId × User) → AuthCall β}
    (h : CodesAtRest s)
    (hok : ∀ found t, found.map (·.1) = s.accountOf host identifier →
      Handling i s (fun _ => none) [] t → Alone (AuthOp.exec host) i Q (f found) t)
    (herr : ∀ fault t, Handling i s (fun _ => none) [] t → Q (.error fault) t) :
    Alone (AuthOp.exec host) i Q (AuthService.findByIdentifier host identifier >>= f) s := by
  unfold AuthService.findByIdentifier
  cases hc : contactOf host identifier with
  | none =>
      refine hok none s ?_ (.start h i)
      rw [accountOf, hc]
      rfl
  | some contact =>
      refine Alone.bind fun x r t hexec => ?_
      have htick := (Handling.start h i).tick x.elapsed
      rcases AuthOp.exec_cases hexec with ⟨fault, rfl, rfl⟩ | ⟨a, rfl, hp⟩
      · exact herr _ _ htick
      · obtain ⟨rfl, rfl⟩ := Prod.mk.inj (Option.some.inj hp)
        refine hok _ _ ?_ ⟨htick.now, htick.committed, htick.own, htick.others, htick.next,
          htick.log, htick.work⟩
        rw [accountOf, hc]
        rfl

theorem alone_forgotPassword {identifier : String} (h : CodesAtRest s) :
    Alone (AuthOp.exec host) i (LeftBy s []) (AuthService.forgotPassword host identifier) s := by
  unfold AuthService.forgotPassword
  refine alone_account h (fun found t _ ht => ?_) fun _ t ht => ht.left
  cases found.filter fun u => u.2.status = .active with
  | none => exact ht.left
  | some r =>
      refine alone_look (o := .random) rfl rfl (fun _ => rfl) ht (fun code t ht => ?_)
        fun _ t ht => ht.left
      refine Alone.bind (Alone.mono (fun r t hleft => ?_) (alone_inTx (alone_createCode ht)))
      cases r with
      | ok a => exact hleft
      | error fault => exact hleft

/-- The code that a reset finds: one of the account that is alive, and none that is was issued
at a later instant. -/
structure Picked (s : AuthDesk) (user : UserId) (c : CodeId) (code : VerificationCode) : Prop where
  found : s.codes.committed c = some code
  ofUser : code.userId = user
  alive : code.alive s.now = true
  newest : ∃ at_, s.now ≤ at_ ∧ code.alive at_ = true ∧ ∀ k row, s.codes.committed k = some row →
    row.userId = user → row.alive at_ = true → row.createdAt ≤ code.createdAt

theorem alive_of_later {now later : Instant} {c : VerificationCode} (h : c.alive later = true)
    (hle : now ≤ later) : c.alive now = true := by
  simp only [VerificationCode.alive, Bool.and_eq_true, decide_eq_true_eq] at h ⊢
  exact ⟨h.1, lt_of_le_of_lt hle h.2⟩

theorem Handling.picked {s₀ : AuthDesk} {w : List AuthEvent} {p : CodeId → Option VerificationCode}
    (h : Handling i s₀ p w s) {user : UserId} {c : CodeId} {code : VerificationCode}
    (hfound : s.findCode user = some (c, code)) : Picked s₀ user c code := by
  obtain ⟨hmem, hnewest⟩ := Sorting.head_insertionSort
    (fun a b => le_total b.2.createdAt a.2.createdAt) (fun _ _ _ hab hbc => hbc.trans hab) hfound
  obtain ⟨hlist, hlive⟩ := List.mem_filter.mp hmem
  simp only [Bool.and_eq_true, decide_eq_true_eq] at hlive
  obtain ⟨⟨huser, hunconsumed⟩, hexpires⟩ := hlive
  have halive : code.alive s.now = true := by
    simp [VerificationCode.alive, hunconsumed, hexpires]
  refine ⟨?_, huser, alive_of_later halive h.now, s.now, h.now, halive, fun k row hk hrow hlive => ?_⟩
  · rw [← h.committed]
    exact Table.mem_list.mp hlist
  · simp only [VerificationCode.alive, Bool.and_eq_true, decide_eq_true_eq] at hlive
    refine hnewest (k, row) (List.mem_filter.mpr ⟨Table.mem_list.mpr ?_, ?_⟩)
    · rw [h.committed, hk]
    · simp [hrow, hlive]

/-- What a reset leaves. -/
def Resets (s : AuthDesk) (user : Option UserId) : Except AuthFault AuthAnswer → AuthDesk → Prop
  | .ok _, t => ∃ id c code, user = some id ∧ Picked s id c code ∧ Left s [c] t
  | .error _, t => Left s [] t

/-- A wrong guess is counted. -/
theorem Handling.miss {s₀ : AuthDesk} (h : Handling i s₀ (fun _ => none) [] s) {c : CodeId}
    {found : Bool} (hp : s.miss c = some (found, t)) : Left s₀ [] t := by
  rcases miss_some hp with ⟨-, -, rfl⟩ | ⟨code, codes, -, -, hwrite, rfl⟩
  · exact h.left
  have hleft := h.left
  have hrows : ∀ k, codes.committed k = (s₀.codes.committed k).map fun r =>
      (onRow c VerificationCode.miss k r).getD r := by
    intro k
    rw [Table.committed_updateNow hwrite, h.committed]
  refine ⟨h.now, fun j k => (Table.own_updateNow hwrite).trans (hleft.settled j k), h.work,
    h.next.trans (Table.next_updateNow hwrite).ge, h.log, fun k row hrow => ?_, fun k c' hc' hnone => ?_⟩
  · have hrow' : codes.committed k = some ((onRow c VerificationCode.miss k row).getD row) := by
      rw [hrows, hrow, Option.map_some]
    by_cases hk : k = c
    · rw [onRow, if_pos hk] at hrow'
      exact ⟨_, hrow', ⟨rfl, rfl, rfl⟩, fun hused => hused.resolve_right (by simp)⟩
    · rw [AuthOp.onRow_none hk] at hrow'
      exact ⟨_, hrow', .refl row, fun hused => hused.resolve_right (by simp)⟩
  · have hsome : codes.committed k = some c' := hc'
    rw [hrows, hnone] at hsome
    cases hsome

theorem alone_redeemCode {dto : ResetPasswordDto} (h : CodesAtRest s) :
    Alone (AuthOp.exec host) i (Resets s (s.accountOf host dto.identifier))
      (AuthService.resetPassword host dto) s := by
  unfold AuthService.resetPassword
  refine alone_account h (fun found t hfound ht => ?_) fun _ t ht => ht.left
  rw [← hfound]
  cases found with
  | none => exact ht.left
  | some r =>
      obtain ⟨id, user⟩ := r
      refine alone_step (o := .findCode id) (by simp) ht (fun u x found t hu hp => ?_)
        fun _ t ht => ht.left
      obtain ⟨hcode, rfl⟩ := Prod.mk.inj (Option.some.inj hp)
      cases hc : found.filter fun c => c.2.attempts < otpMaxAttempts with
      | none => exact hu.left
      | some c =>
          obtain ⟨c, code⟩ := c
          have hpicked : Picked s id c code :=
            hu.picked (hcode.trans (Option.filter_eq_some_iff.mp hc).1)
          refine alone_look (o := .compare c code _) rfl rfl (fun _ => rfl) hu
            (fun right t ht => ?_) fun _ t ht => ht.left
          cases right with
          | false =>
              refine alone_step (o := .miss c) (by simp) ht (fun u x found t hu hp => ?_)
                fun _ t ht => ht.left
              have hleft := hu.miss hp
              cases found with
              | false => exact hleft
              | true => exact hleft
          | true =>
              refine Alone.mono (fun r t hleft => ?_) (alone_inTx (alone_consume (c := c) ht ?_))
              · cases r with
                | ok a => exact ⟨id, c, code, rfl, hpicked, hleft⟩
                | error fault => exact hleft
              intro p w t ht hw hp
              refine alone_more (o := .random) rfl rfl ht hw hp fun salt w t ht hw hp => ?_
              refine alone_more (o := .updateUserTx id _) rfl rfl ht hw hp fun found w t ht hw hp => ?_
              cases found with
              | false => exact ⟨_, _, ht⟩
              | true =>
                  refine alone_more (o := .revokeUserTx id .passwordReset none) rfl rfl ht hw hp
                    fun _ w t ht hw hp => ?_
                  exact ⟨_, _, ht, hw, hp⟩

end calls

/-! ### Sequences of calls -/

/-- No code of the account that is alive is older than one that was consumed, nor was it issued
in the same millisecond as a later one. -/
def AuthDesk.inOrder (s : AuthDesk) (user : UserId) : Bool :=
  s.codes.list.all fun old => s.codes.list.all fun new =>
    !(old.2.userId = user && new.2.userId = user && old.1 < new.1 && old.2.alive s.now) ||
      (new.2.consumedAt.isNone && old.2.createdAt < new.2.createdAt)

/-- A reset is asked for while the codes of its account are in order. -/
def resetInOrder (host : AuthHost) (r : ResetRun) (a : ResetAction) : Prop :=
  match a.call with
  | .forgot _ => True
  | .reset dto => (r.desk.accountOf host dto.identifier).all r.desk.inOrder = true

instance (host : AuthHost) (r : ResetRun) (a : ResetAction) : Decidable (resetInOrder host r a) := by
  unfold resetInOrder
  split
  · exact inferInstance
  · exact inferInstance

/-- The code issued last to the account among the first `issued` ones. -/
def AuthDesk.IssuedLast (s : AuthDesk) (user : UserId) (issued : ℕ) (c : CodeId) : Prop :=
  (∃ code, s.codes.committed c = some code ∧ code.userId = user) ∧
    ∀ k row, s.codes.committed k = some row → row.userId = user → k < issued → k ≤ c

/-- One reset ends all earlier codes. -/
structure OneReset (r : ResetRun) : Prop where
  /-- a reset succeeds with the code that was issued last -/
  newest : ∀ x ∈ r.answers, x.succeeds = true → ∃ user c, x.account = some user ∧
    x.consumed = [c] ∧ r.desk.IssuedLast user x.issued c
  /-- and after it only with one that was issued later -/
  ended : r.answers.Pairwise fun later earlier => later.succeeds = true → earlier.succeeds = true →
    later.account = earlier.account → ∀ c ∈ later.consumed, earlier.issued ≤ c

section sequences

attribute [local irreducible] contactOf trim

variable {host : AuthHost} {s t : AuthDesk} {used : List CodeId}

theorem inOrder_iff {user : UserId} : s.inOrder user = true ↔
    ∀ old c, s.codes.committed old = some c → ∀ new c', s.codes.committed new = some c' →
      c.userId = user → c'.userId = user → old < new → c.alive s.now = true →
        c'.consumedAt = none ∧ c.createdAt < c'.createdAt := by
  constructor
  · intro h old c hc new c' hc' hu hu' hlt halive
    have hpair := List.all_eq_true.mp (List.all_eq_true.mp h (old, c) (Table.mem_list.mpr hc))
      (new, c') (Table.mem_list.mpr hc')
    simpa [hu, hu', hlt, halive] using hpair
  · intro h
    refine List.all_eq_true.mpr fun ⟨old, c⟩ hc => List.all_eq_true.mpr fun ⟨new, c'⟩ hc' => ?_
    by_cases hlive : c.userId = user ∧ c'.userId = user ∧ old < new ∧ c.alive s.now = true
    · obtain ⟨hu, hu', hlt, halive⟩ := hlive
      obtain ⟨hnone, hcreated⟩ := h old c (Table.mem_list.mp hc) new c' (Table.mem_list.mp hc') hu hu'
        hlt halive
      simp [hnone, hcreated]
    · simp only [Bool.or_eq_true, Bool.not_eq_true', Bool.and_eq_false_iff, decide_eq_false_iff_not]
      refine .inl ?_
      by_contra hall
      push Not at hall
      exact hlive ⟨hall.1.1.1, hall.1.1.2, hall.1.2, by simpa using hall.2⟩

theorem Left.consumedSince (h : Left s used t) : consumedIn (t.loggedSince s) = used := by
  obtain ⟨new, hlog, hnew⟩ := h.log
  have htake : t.loggedSince s = new := by
    rw [AuthDesk.loggedSince, hlog, List.length_append, Nat.add_sub_cancel, List.take_left]
  rw [htake, hnew]

/-- Codes that are issued later change nothing about the earlier ones. -/
theorem Left.issuedLast (h : Left s used t) {user : UserId} {issued : ℕ} {c : CodeId}
    (hissued : issued ≤ s.codes.next) (hlast : s.IssuedLast user issued c) :
    t.IssuedLast user issued c := by
  obtain ⟨⟨code, hcode, huser⟩, hall⟩ := hlast
  obtain ⟨code', hcode', hsame, -⟩ := h.rows c code hcode
  refine ⟨⟨code', hcode', hsame.userId.trans huser⟩, fun k row' hrow' huser' hk => ?_⟩
  cases hrow : s.codes.committed k with
  | none =>
      have hle := (h.fresh k row' hrow' hrow).1
      omega
  | some row =>
      obtain ⟨row₁, hrow₁, hsame₁, -⟩ := h.rows k row hrow
      obtain rfl := Option.some.inj (hrow₁.symm.trans hrow')
      exact hall k row hrow (hsame₁.userId.symm.trans huser') hk

/-- What is kept: nobody is at work, every code lives ten minutes, and what was accepted is
consumed. -/
structure Followed (r : ResetRun) : Prop where
  rest : CodesAtRest r.desk
  issued : ∀ k c, r.desk.codes.committed k = some c → c.Issued r.desk.now
  past : ∀ x ∈ r.answers, x.issued ≤ r.desk.codes.next
  spent : ∀ x ∈ r.answers, ∀ c ∈ x.consumed, ∃ code, r.desk.codes.committed c = some code ∧
    code.consumedAt.isSome = true
  once : OneReset r

/-- A call that leaves the codes so, answers `x`. -/
theorem Followed.call {r : ResetRun} (h : Followed r) {x : ResetAnswer} (hleft : Left r.desk used t)
    (hconsumed : x.consumed = used) (hissued : x.issued = r.desk.codes.next)
    (hused : ∀ c ∈ used, ∃ code, r.desk.codes.committed c = some code)
    (hnewest : x.succeeds = true → ∃ user c, x.account = some user ∧ used = [c] ∧
      r.desk.IssuedLast user x.issued c)
    (hended : x.succeeds = true → ∀ y ∈ r.answers, y.succeeds = true → x.account = y.account →
      ∀ c ∈ used, y.issued ≤ c) :
    Followed { desk := t, answers := x :: r.answers } := by
  constructor
  case rest => exact ⟨hleft.settled, hleft.work⟩
  case issued =>
    intro k c' hc'
    cases hc : r.desk.codes.committed k with
    | none => exact (hleft.fresh k c' hc' hc).2
    | some c =>
        obtain ⟨c₁, hc₁, hsame, -⟩ := hleft.rows k c hc
        obtain rfl := Option.some.inj (hc₁.symm.trans hc')
        obtain ⟨hpast, hlife⟩ := h.issued k c hc
        refine ⟨?_, ?_⟩
        · rw [hsame.createdAt]
          exact hpast.trans hleft.now
        · rw [hsame.expiresAt, hsame.createdAt, hlife]
  case past =>
    intro y hy
    rcases List.mem_cons.mp hy with rfl | hold
    · rw [hissued]
      exact hleft.next
    · exact (h.past y hold).trans hleft.next
  case spent =>
    intro y hy c hc
    rcases List.mem_cons.mp hy with rfl | hold
    · rw [hconsumed] at hc
      obtain ⟨code, hcode⟩ := hused c hc
      obtain ⟨code', hcode', -, hspent⟩ := hleft.rows c code hcode
      exact ⟨code', hcode', hspent (.inr hc)⟩
    · obtain ⟨code, hcode, hconsumedAt⟩ := h.spent y hold c hc
      obtain ⟨code', hcode', -, hspent⟩ := hleft.rows c code hcode
      exact ⟨code', hcode', hspent (.inl hconsumedAt)⟩
  case once =>
    refine ⟨fun y hy hy' => ?_, List.pairwise_cons.mpr ⟨fun y hy hx hy' haccount c hc => ?_,
      h.once.ended⟩⟩
    · rcases List.mem_cons.mp hy with rfl | hold
      · obtain ⟨user, c, haccount, hone, hlast⟩ := hnewest hy'
        exact ⟨user, c, haccount, hconsumed.trans hone, hleft.issuedLast hissued.le hlast⟩
      · obtain ⟨user, c, haccount, hone, hlast⟩ := h.once.newest y hold hy'
        exact ⟨user, c, haccount, hone, hleft.issuedLast (h.past y hold) hlast⟩
    · rw [hconsumed] at hc
      exact hended hx y hy hy' haccount c hc

/-- Where the codes are in order, the one that is found was issued last. -/
theorem Followed.found {r : ResetRun} (h : Followed r) {user : UserId} {c : CodeId}
    {code : VerificationCode} (hpicked : Picked r.desk user c code)
    (horder : r.desk.inOrder user = true) : r.desk.IssuedLast user r.desk.codes.next c := by
  refine ⟨⟨code, hpicked.found, hpicked.ofUser⟩, fun k row hrow huser _ => ?_⟩
  by_contra hlt
  obtain ⟨hnone, hcreated⟩ := inOrder_iff.mp horder c code hpicked.found k row hrow hpicked.ofUser
    huser (by omega) hpicked.alive
  obtain ⟨at_, -, halive, hnewest⟩ := hpicked.newest
  -- the later code lives longer, so it would have been found
  have hlives : row.alive at_ = true := by
    simp only [VerificationCode.alive, Bool.and_eq_true, decide_eq_true_eq] at halive ⊢
    refine ⟨by rw [hnone]; rfl, ?_⟩
    have hexpires := halive.2
    rw [(h.issued c code hpicked.found).life] at hexpires
    rw [(h.issued k row hrow).life]
    linarith
  exact absurd (hnewest k row hrow huser hlives) (not_le.mpr hcreated)

theorem resetStep_some {r r' : ResetRun} {a : ResetAction} (h : resetStep host r a = some r') :
    ∃ answer t, Prog.runAlone (AuthOp.exec host) r.answers.length (a.call.body host) a.inputs
        r.desk = some (answer, t) ∧
      r' = { desk := t, answers :=
        { call := a.call, account := r.desk.accountOf host a.call.identifier, answer,
          consumed := consumedIn (t.loggedSince r.desk),
          issued := r.desk.codes.next } :: r.answers } := by
  obtain ⟨⟨answer, t⟩, hrun, rfl⟩ := Option.map_eq_some_iff.mp h
  exact ⟨answer, t, hrun, rfl⟩

/-- A call that consumes nothing. -/
theorem Followed.idle {r : ResetRun} (h : Followed r) {x : ResetAnswer} (hleft : Left r.desk [] t)
    (hconsumed : x.consumed = consumedIn (t.loggedSince r.desk))
    (hissued : x.issued = r.desk.codes.next) (hfails : x.succeeds = false) :
    Followed { desk := t, answers := x :: r.answers } := by
  refine h.call hleft (hconsumed.trans hleft.consumedSince) hissued (by simp) (fun hx => ?_)
    fun hx => ?_
  · rw [hfails] at hx
    cases hx
  · rw [hfails] at hx
    cases hx

theorem Followed.step {r r' : ResetRun} {a : ResetAction} (h : Followed r)
    (horder : resetInOrder host r a) (hstep : resetStep host r a = some r') : Followed r' := by
  obtain ⟨answer, t, hrun, rfl⟩ := resetStep_some hstep
  obtain ⟨call, inputs⟩ := a
  cases call with
  | forgot identifier =>
      have hleft := (alone_forgotPassword h.rest).run hrun
      cases answer with
      | ok a => exact h.idle hleft rfl rfl rfl
      | error fault => exact h.idle hleft rfl rfl rfl
  | reset dto =>
      have hresets := (alone_redeemCode h.rest).run hrun
      cases answer with
      | error fault => exact h.idle hresets rfl rfl rfl
      | ok a =>
          obtain ⟨user, c, code, haccount, hpicked, hleft⟩ := hresets
          have hinOrder : r.desk.inOrder user = true := by
            have hall : (r.desk.accountOf host dto.identifier).all r.desk.inOrder = true := horder
            rwa [haccount] at hall
          refine h.call hleft hleft.consumedSince rfl ?_ (fun _ => ?_) fun _ y hy hy' hsame k hk => ?_
          · intro k hk
            obtain rfl := List.mem_singleton.mp hk
            exact ⟨code, hpicked.found⟩
          · exact ⟨user, c, haccount, rfl, h.found hpicked hinOrder⟩
          · obtain rfl := List.mem_singleton.mp hk
            obtain ⟨user', c', haccount', hone, ⟨code₁, hcode₁, huser₁⟩, hlast⟩ :=
              h.once.newest y hy hy'
            obtain rfl : user = user' := Option.some.inj (haccount.symm.trans (hsame.trans haccount'))
            -- an older one would be alive beside a later one that was consumed
            by_contra hlt
            have hle : k ≤ c' := hlast k code hpicked.found hpicked.ofUser (by omega)
            obtain ⟨code', hcode', hspent⟩ := h.spent y hy c' (by rw [hone]; simp)
            have halive := hpicked.alive
            simp only [VerificationCode.alive, Bool.and_eq_true] at halive
            rcases Nat.eq_or_lt_of_le hle with rfl | hlater
            · obtain rfl := Option.some.inj (hcode'.symm.trans hpicked.found)
              simp [Option.isNone_iff_eq_none.mp halive.1] at hspent
            · obtain rfl := Option.some.inj (hcode₁.symm.trans hcode')
              have hnone := (inOrder_iff.mp hinOrder k code hpicked.found c' code₁ hcode₁
                hpicked.ofUser huser₁ hlater hpicked.alive).1
              simp [hnone] at hspent

end sequences

end BookHouse
