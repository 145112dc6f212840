/-
The calls of the shoppers.

A call works on the carts of its own callers and on no others (`Fits`), and while it is under
way nobody else does (`At`).  So what the carts of the others are is not changed by any of
its statements, and what its own are is what it made of them: when it is answered, the carts
have become what the call was for (`Outcome`), as if it had been made in one go.  The
contract says this for every thread, and every interleaving of calls that do not overlap on
a cart keeps it.
-/
import BookHouse.Proofs.Carts

namespace BookHouse

open Prog

namespace CartDesk

variable {s t : CartDesk} {o : CartOwner} {c : CartRow}

/-! ### The contract -/

/-- What thread `i` relies on: nobody else works on the carts of its call. -/
structure Rely (i : TxId) (s t : CartDesk) : Prop where
  now : s.now ≤ t.now
  visit : ∀ v ∈ s.underway, v.thread = i → v ∈ t.underway ∧ ∀ o ∈ v.owners, t.cart o = s.cart o
  fresh : (∀ v ∈ s.underway, v.thread ≠ i) → ∀ v ∈ t.underway, v.thread ≠ i
  history : s.history <:+ t.history

/-- The call `v` is under way, and its carts are as in `B`. -/
structure At (v : Visit) (B : Baskets) (s : CartDesk) : Prop where
  mem : v ∈ s.underway
  cart : ∀ o ∈ v.owners, s.cart o = B o

/-- A statement works on the carts of the call. -/
def Fits (v : Visit) (B : Baskets) : CartOp → Prop
  | .createCart (some id) => .customer id ∈ v.owners ∧ B (.customer id) = none
  | .updateItem id q =>
    (∃ o ∈ v.owners, ∃ c, B o = some c ∧ ∃ i ∈ c.items, i.id = id) ∧ 1 ≤ q ∧ q ≤ 99
  | .deleteItem id => ∃ o ∈ v.owners, ∃ c, B o = some c ∧ ∃ i ∈ c.items, i.id = id
  | .createItem cartId key q =>
    (∃ o ∈ v.owners, ∃ c, B o = some c ∧ c.id = cartId ∧ ∀ i ∈ c.items, i.key ≠ key) ∧
      1 ≤ q ∧ q ≤ 99
  | .clear cartId | .setCoupon cartId _ | .touch cartId _ =>
    ∃ o ∈ v.owners, ∃ c, B o = some c ∧ c.id = cartId
  | .merge customerId guestToken =>
    .customer customerId ∈ v.owners ∧ .guest guestToken ∈ v.owners
  | .clearForOrder o => o ∈ v.owners
  | _ => True

/-- With this answer, the carts have become what the call was for. -/
def Settles (v : Visit) (B : Baskets) (a : CartAnswer) (now : Instant) : Prop :=
  ∀ at_, now ≤ at_ → ∀ B₀ : Baskets, (∀ o ∈ v.owners, B₀ o = v.before o) →
    CartEvent.Outcome ⟨v.thread, v.request, a, v.arrived, at_⟩ B₀ fun o =>
      if o ∈ v.owners then B o else B₀ o

/-- The call of thread `i` can be answered. -/
def Ready (i : TxId) (a : CartAnswer) (s : CartDesk) : Prop :=
  ∃ v B, v.thread = i ∧ At v B s ∧ Settles v B a s.now

def Pre (i : TxId) (o : CartOp) (s : CartDesk) : Prop :=
  match o with
  | .arrive _ => ∀ v ∈ s.underway, v.thread ≠ i
  | .purge => True
  | .answer a => Ready i a s
  | o => ∃ v B, v.thread = i ∧ At v B s ∧ Fits v B o

/-- What has been answered made `B`, which the carts are but for the calls under way. -/
structure Ledger (B₀ B : Baskets) (s : CartDesk) : Prop where
  follows : Follows B₀ s.history B
  idle : ∀ o, (∀ v ∈ s.underway, o ∉ v.owners) → s.cart o = B o
  before : ∀ v ∈ s.underway, ∀ o ∈ v.owners, v.before o = B o

structure Inv (B₀ : Baskets) (s : CartDesk) : Prop where
  sound : s.Sound
  threads : ∀ v ∈ s.underway, ∀ v' ∈ s.underway, v.thread = v'.thread → v = v'
  apart : ∀ v ∈ s.underway, ∀ v' ∈ s.underway, ∀ o ∈ v.owners, o ∈ v'.owners → v = v'
  arrived : ∀ v ∈ s.underway, v.arrived ≤ s.now
  ledger : ∃ B, Ledger B₀ B s

section contract

variable {B₀ B : Baskets} {v : Visit} {i j : TxId} {u : CartDesk} {x : CartInput}

theorem Rely.refl : Rely i s s :=
  ⟨le_refl _, fun _ hv _ => ⟨hv, fun _ _ => rfl⟩, fun h => h, List.suffix_refl _⟩

theorem Rely.trans (h : Rely i s t) (h' : Rely i t u) : Rely i s u where
  now := h.now.trans h'.now
  visit v hv hi := by
    obtain ⟨hmem, hcart⟩ := h.visit v hv hi
    obtain ⟨hmem', hcart'⟩ := h'.visit v hmem hi
    exact ⟨hmem', fun o ho => (hcart' o ho).trans (hcart o ho)⟩
  fresh hf := h'.fresh (h.fresh hf)
  history := h.history.trans h'.history

theorem At.stable (h : At v B s) (hr : Rely v.thread s t) : At v B t := by
  obtain ⟨hmem, hcart⟩ := hr.visit v h.mem rfl
  exact ⟨hmem, fun o ho => (hcart o ho).trans (h.cart o ho)⟩

theorem Settles.later {a : CartAnswer} {now later : Instant} (h : Settles v B a now)
    (hle : now ≤ later) : Settles v B a later := fun at_ ha => h at_ (hle.trans ha)

theorem Ready.stable {a : CartAnswer} (h : Ready i a s) (hr : Rely i s t) : Ready i a t := by
  obtain ⟨v, B, rfl, hat, hsettles⟩ := h
  exact ⟨v, B, rfl, hat.stable hr, hsettles.later hr.now⟩

theorem Pre.stable {o : CartOp} (hr : Rely i s t) (h : Pre i o s) : Pre i o t := by
  cases o with
  | arrive request => exact hr.fresh h
  | purge => trivial
  | answer a => exact Ready.stable h hr
  | _ =>
      obtain ⟨v, B, rfl, hat, hfits⟩ := h
      exact ⟨v, B, rfl, hat.stable hr, hfits⟩

/-- Time passes. -/
theorem Inv.wait (h : Inv B₀ s) {now : Instant} (hnow : s.now ≤ now) :
    Inv B₀ { s with now } ∧ ∀ j, Rely j s { s with now } := by
  obtain ⟨B, hledger⟩ := h.ledger
  have hsound : ({ s with now } : CartDesk).Sound :=
    sound_sub h.sound (fun _ hc => hc) rfl rfl
  refine ⟨⟨hsound, h.threads, h.apart, fun v hv => (h.arrived v hv).trans hnow,
    B, hledger.follows, hledger.idle, hledger.before⟩, fun j => ?_⟩
  exact ⟨hnow, fun v hv _ => ⟨hv, fun _ _ => rfl⟩, fun hf => hf, List.suffix_refl _⟩

/-- A statement of the call `v` has worked on its own carts only. -/
structure Works (v : Visit) (s t : CartDesk) : Prop where
  sound : t.Sound
  cart : ∀ o, o ∉ v.owners → t.cart o = s.cart o
  now : t.now = s.now
  underway : t.underway = s.underway
  history : t.history = s.history

theorem Works.refl (hs : s.Sound) : Works v s s := ⟨hs, fun _ _ => rfl, rfl, rfl, rfl⟩

theorem Changed.works (h : Changed s t o c) (ho : o ∈ v.owners) : Works v s t where
  sound := h.sound
  cart o' ho' := by
    have hne : o' ≠ o := by
      rintro rfl
      exact ho' ho
    rw [h.cart, Baskets.put, Function.update_of_ne hne]
  now := h.now
  underway := h.underway
  history := h.history

theorem Works.inv (hw : Works v s t) (h : Inv B₀ s) (hv : v ∈ s.underway) :
    Inv B₀ t ∧ ∀ j, j ≠ v.thread → Rely j s t := by
  obtain ⟨B, hledger⟩ := h.ledger
  refine ⟨⟨hw.sound, ?_, ?_, ?_, B, ?_, ?_, ?_⟩, fun j hj => ⟨?_, ?_, ?_, ?_⟩⟩
  · rw [hw.underway]
    exact h.threads
  · rw [hw.underway]
    exact h.apart
  · rw [hw.underway, hw.now]
    exact h.arrived
  · rw [hw.history]
    exact hledger.follows
  · intro o ho
    rw [hw.underway] at ho
    rw [hw.cart o (ho v hv)]
    exact hledger.idle o ho
  · rw [hw.underway]
    exact hledger.before
  · exact hw.now.symm.le
  · intro v' hv' hj'
    refine ⟨hw.underway ▸ hv', fun o ho => hw.cart o fun hown => ?_⟩
    rw [h.apart v' hv' v hv o ho hown] at hj'
    exact hj hj'.symm
  · rw [hw.underway]
    exact fun hf => hf
  · rw [hw.history]

/-- Each statement that works on the carts of its call works on those only. -/
theorem works_perform (h : Inv B₀ s) (hat : At v B s) {o : CartOp} (hfits : Fits v B o)
    (hvisit : ∀ request, o ≠ .arrive request) (hnew : o ≠ .createCart none) (hpurge : o ≠ .purge)
    (hanswer : ∀ a, o ≠ .answer a) : Works v s (o.perform v.thread x s).2 := by
  have hs := h.sound
  cases o with
  | arrive request => exact absurd rfl (hvisit request)
  | find owner => exact .refl hs
  | loadLines key q => exact .refl hs
  | quote cart code id => exact .refl hs
  | createCart id =>
      cases id with
      | none => exact absurd rfl hnew
      | some id =>
          obtain ⟨ho, hnone⟩ := hfits
          exact (insertCart_customer hs ((hat.cart _ ho).trans hnone) x.token).2.works ho
  | updateItem id q =>
      obtain ⟨⟨o, ho, c, hc, i, hi, rfl⟩, hq⟩ := hfits
      exact (updateItem_spec hs ((hat.cart o ho).trans hc) hi hq).2.works ho
  | createItem cartId key q =>
      obtain ⟨⟨o, ho, c, hc, rfl, hkey⟩, hq⟩ := hfits
      exact (createItem_spec hs ((hat.cart o ho).trans hc) hq hkey).2.works ho
  | deleteItem id =>
      obtain ⟨o, ho, c, hc, i, hi, rfl⟩ := hfits
      exact (deleteItem_spec hs ((hat.cart o ho).trans hc) hi).2.works ho
  | clear cartId =>
      obtain ⟨o, ho, c, hc, rfl⟩ := hfits
      exact (update_spec (f := (·.clear)) hs ((hat.cart o ho).trans hc) ⟨rfl, rfl, rfl⟩
        (.inr rfl)).2.works ho
  | setCoupon cartId code =>
      obtain ⟨o, ho, c, hc, rfl⟩ := hfits
      exact (update_spec (f := ({ · with couponCode := code })) hs ((hat.cart o ho).trans hc)
        ⟨rfl, rfl, rfl⟩ (.inl rfl)).2.works ho
  | merge id token =>
      obtain ⟨hcustomer, hguest⟩ := hfits
      cases hg : s.cart (.guest token) with
      | none =>
          simp only [CartOp.perform, merge_none hs hg]
          exact .refl hs
      | some g =>
          obtain ⟨m, next, -, -, -, -, hsound, hcart, hnow, hund, hhist⟩ :=
            merge_some id hs hg
          refine ⟨hsound, fun o ho => ?_, hnow, hund, hhist⟩
          have hne : o ≠ .customer id := fun he => ho (he ▸ hcustomer)
          have hne' : o ≠ .guest token := fun he => ho (he ▸ hguest)
          have := congrFun hcart o
          rw [Baskets.remove, Function.update_of_ne hne', Baskets.put,
            Function.update_of_ne hne] at this
          exact this
  | findToken cartId =>
      simp only [CartOp.perform]
      split
      · exact .refl hs
      · exact .refl hs
  | touch cartId guest =>
      obtain ⟨o, ho, c, hc, rfl⟩ := hfits
      exact (touch_spec hs ((hat.cart o ho).trans hc) guest).2.works ho
  | clearForOrder o =>
      simp only [CartOp.perform]
      cases hc : s.cart o with
      | none =>
          rw [clearForOrder_none hs hc]
          exact .refl hs
      | some c => exact (clearForOrder_some hs hc).works hfits
  | purge => exact absurd rfl hpurge
  | answer a => exact absurd rfl (hanswer a)

/-! ### Requests come, tokens are drawn, answers go -/

/-- The call that comes in finds the carts as the ledger has them. -/
theorem Inv.arrive (h : Inv B₀ s) {request : CartRequest} (hnew : ∀ v ∈ s.underway, v.thread ≠ i)
    (hapart : ∀ v ∈ s.underway, ∀ o ∈ request.owners, o ∉ v.owners) :
    Inv B₀ (s.arrive i request) ∧ ∀ j, j ≠ i → Rely j s (s.arrive i request) := by
  obtain ⟨B, hledger⟩ := h.ledger
  refine ⟨⟨sound_sub h.sound (fun _ hc => hc) rfl rfl, ?_, ?_, ?_, B, hledger.follows, ?_, ?_⟩,
    fun j hj => ⟨le_refl _, fun v hv _ => ⟨List.mem_cons_of_mem _ hv, fun _ _ => rfl⟩, ?_,
      List.suffix_refl _⟩⟩
  · intro v hv v' hv' he
    rcases List.mem_cons.mp hv with rfl | hv <;> rcases List.mem_cons.mp hv' with rfl | hv'
    · rfl
    · exact absurd he.symm (hnew v' hv')
    · exact absurd he (hnew v hv)
    · exact h.threads v hv v' hv' he
  · intro v hv v' hv' o ho ho'
    rcases List.mem_cons.mp hv with rfl | hv <;> rcases List.mem_cons.mp hv' with rfl | hv'
    · rfl
    · exact absurd ho' (hapart v' hv' o ho)
    · exact absurd ho (hapart v hv o ho')
    · exact h.apart v hv v' hv' o ho ho'
  · intro v hv
    rcases List.mem_cons.mp hv with rfl | hv
    · exact le_refl _
    · exact h.arrived v hv
  · intro o ho
    exact hledger.idle o fun v hv => ho v (List.mem_cons_of_mem _ hv)
  · intro v hv o ho
    rcases List.mem_cons.mp hv with rfl | hv
    · exact hledger.idle o fun v' hv' => hapart v' hv' o ho
    · exact hledger.before v hv o ho
  · intro hf v hv
    rcases List.mem_cons.mp hv with rfl | hv
    · exact hj.symm
    · exact hf v hv

theorem mem_draw (h : Inv B₀ s) (hv : v ∈ s.underway) (token : CartToken) {w : Visit} :
    w ∈ (s.draw v.thread token).underway ↔
      w = v.drawn token ∨ w ∈ s.underway ∧ w.thread ≠ v.thread := by
  simp only [draw, List.mem_map]
  constructor
  · rintro ⟨w', hw', rfl⟩
    by_cases ht : w'.thread = v.thread
    · rw [if_pos ht, h.threads w' hw' v hv ht]
      exact .inl rfl
    · rw [if_neg ht]
      exact .inr ⟨hw', ht⟩
  · rintro (rfl | ⟨hw, ht⟩)
    · exact ⟨v, hv, if_pos rfl⟩
    · exact ⟨w, hw, if_neg ht⟩

/-- The guest's cart that a call has created is one of its carts. -/
theorem Inv.draw (h : Inv B₀ s) (hv : v ∈ s.underway) {token : CartToken}
    (hnone : s.cart (.guest token) = none) (hchanged : Changed s t (.guest token) c)
    (hapart : ∀ w ∈ s.underway, .guest token ∉ w.owners) :
    Inv B₀ (t.draw v.thread token) ∧ ∀ j, j ≠ v.thread → Rely j s (t.draw v.thread token) := by
  obtain ⟨B, hledger⟩ := h.ledger
  have hmem : ∀ w, w ∈ (t.draw v.thread token).underway ↔
      w = v.drawn token ∨ w ∈ s.underway ∧ w.thread ≠ v.thread := by
    intro w
    rw [← mem_draw h hv token]
    unfold CartDesk.draw
    rw [hchanged.underway]
  have hother : ∀ o, o ≠ .guest token → (t.draw v.thread token).cart o = s.cart o := by
    intro o ho
    have := congrFun hchanged.cart o
    rw [Baskets.put, Function.update_of_ne ho] at this
    exact this
  have hnow : (t.draw v.thread token).now = s.now := hchanged.now
  have hhist : (t.draw v.thread token).history = s.history := hchanged.history
  refine ⟨⟨sound_sub hchanged.sound (fun _ hc => hc) rfl rfl, ?_, ?_, ?_, B, ?_, ?_, ?_⟩,
    fun j hj => ⟨hnow.symm.le, ?_, ?_, hhist ▸ List.suffix_refl _⟩⟩
  · intro w hw w' hw' he
    rcases (hmem w).mp hw with rfl | ⟨hw, ht⟩ <;> rcases (hmem w').mp hw' with rfl | ⟨hw', ht'⟩
    · rfl
    · exact absurd he.symm ht'
    · exact absurd he ht
    · exact h.threads w hw w' hw' he
  · intro w hw w' hw' o ho ho'
    rcases (hmem w).mp hw with rfl | ⟨hw, ht⟩ <;> rcases (hmem w').mp hw' with rfl | ⟨hw', ht'⟩
    · rfl
    · rcases List.mem_cons.mp ho with rfl | ho
      · exact absurd ho' (hapart w' hw')
      · exact absurd (congrArg Visit.thread (h.apart v hv w' hw' o ho ho')).symm ht'
    · rcases List.mem_cons.mp ho' with rfl | ho'
      · exact absurd ho (hapart w hw)
      · exact absurd (congrArg Visit.thread (h.apart w hw v hv o ho ho')) ht
    · exact h.apart w hw w' hw' o ho ho'
  · intro w hw
    rw [hnow]
    rcases (hmem w).mp hw with rfl | ⟨hw, -⟩
    · exact h.arrived v hv
    · exact h.arrived w hw
  · rw [hhist]
    exact hledger.follows
  · intro o ho
    have hv' := ho _ ((hmem _).mpr (.inl rfl))
    have hne : o ≠ .guest token := by
      rintro rfl
      exact hv' (by simp [Visit.drawn])
    rw [hother o hne]
    apply hledger.idle
    intro w hw hin
    by_cases ht : w.thread = v.thread
    · rw [h.threads w hw v hv ht] at hin
      exact hv' (List.mem_cons_of_mem _ hin)
    · exact ho w ((hmem w).mpr (.inr ⟨hw, ht⟩)) hin
  · intro w hw o ho
    rcases (hmem w).mp hw with rfl | ⟨hw, -⟩
    · by_cases hne : o = .guest token
      · subst hne
        have : B (.guest token) = none := (hledger.idle _ hapart).symm.trans hnone
        simp [Visit.drawn, this]
      · have hin : o ∈ v.owners := by
          rcases List.mem_cons.mp ho with he | hin
          · exact absurd he hne
          · exact hin
        have hbefore : (v.drawn token).before o = v.before o := Function.update_of_ne hne _ _
        rw [hbefore]
        exact hledger.before v hv o hin
    · exact hledger.before w hw o ho
  · intro w hw hj'
    have ht : w.thread ≠ v.thread := by
      rw [hj']
      exact hj
    refine ⟨(hmem w).mpr (.inr ⟨hw, ht⟩), fun o ho => hother o ?_⟩
    rintro rfl
    exact hapart w hw ho
  · intro hf w hw
    rcases (hmem w).mp hw with rfl | ⟨hw, -⟩
    · exact hj.symm
    · exact hf w hw

theorem find_thread (h : Inv B₀ s) (hv : v ∈ s.underway) :
    s.underway.find? (·.thread = v.thread) = some v := by
  cases hf : s.underway.find? (·.thread = v.thread) with
  | none =>
      have := List.find?_eq_none.mp hf v hv
      simp at this
  | some w =>
      have ht : w.thread = v.thread := by simpa using List.find?_some hf
      rw [h.threads w (List.mem_of_find?_eq_some hf) v hv ht]

theorem history_answered (h : Inv B₀ s) (hv : v ∈ s.underway) (a : CartAnswer) :
    (s.answered v.thread a).history =
      { thread := v.thread, request := v.request, answer := a, arrived := v.arrived,
        answered := s.now } :: s.history := by
  simp [CartDesk.answered, find_thread h hv]

/-- The ledger has what the call has made of its carts. -/
theorem Inv.answered (h : Inv B₀ s) {a : CartAnswer} (hready : Ready i a s) :
    Inv B₀ (s.answered i a) ∧ ∀ j, j ≠ i → Rely j s (s.answered i a) := by
  obtain ⟨v, Bv, rfl, hat, hsettles⟩ := hready
  obtain ⟨B, hledger⟩ := h.ledger
  have hv := hat.mem
  have hmem : ∀ w, w ∈ (s.answered v.thread a).underway ↔
      w ∈ s.underway ∧ w.thread ≠ v.thread := by
    intro w
    simp [CartDesk.answered]
  have hhist := history_answered h hv a
  have hcart : ∀ o, (s.answered v.thread a).cart o = s.cart o := fun _ => rfl
  refine ⟨⟨sound_sub h.sound (fun _ hc => hc) rfl rfl, ?_, ?_, ?_,
    fun o => if o ∈ v.owners then Bv o else B o, ?_, ?_, ?_⟩,
    fun j hj => ⟨le_refl _, ?_, ?_, hhist ▸ List.suffix_cons _ _⟩⟩
  · intro w hw w' hw'
    exact h.threads w ((hmem w).mp hw).1 w' ((hmem w').mp hw').1
  · intro w hw w' hw'
    exact h.apart w ((hmem w).mp hw).1 w' ((hmem w').mp hw').1
  · intro w hw
    exact h.arrived w ((hmem w).mp hw).1
  · rw [hhist]
    exact .cons hledger.follows
      (hsettles s.now (le_refl _) B fun o ho => (hledger.before v hv o ho).symm)
  · intro o ho
    simp only [hcart]
    by_cases hin : o ∈ v.owners
    · rw [if_pos hin]
      exact hat.cart o hin
    · rw [if_neg hin]
      apply hledger.idle
      intro w hw hown
      by_cases ht : w.thread = v.thread
      · rw [h.threads w hw v hv ht] at hown
        exact hin hown
      · exact ho w ((hmem w).mpr ⟨hw, ht⟩) hown
  · intro w hw o ho
    obtain ⟨hw, ht⟩ := (hmem w).mp hw
    have hin : o ∉ v.owners := fun hin => ht (by rw [h.apart w hw v hv o ho hin])
    simp only [if_neg hin]
    exact hledger.before w hw o ho
  · intro w hw hj'
    refine ⟨(hmem w).mpr ⟨hw, ?_⟩, fun _ _ => rfl⟩
    rw [hj']
    exact hj
  · intro hf w hw
    exact hf w ((hmem w).mp hw).1

/-- The night takes carts that nobody has in hand. -/
theorem Inv.purge (h : Inv B₀ s) (hkept : ∀ v ∈ s.underway, ∀ o ∈ v.owners,
      (s.cart o).all (!lapsed s.now ·) = true) :
    Inv B₀ (s.purge i) ∧ ∀ j, Rely j s (s.purge i) := by
  obtain ⟨B, hledger⟩ := h.ledger
  have hcart := cart_purge h.sound i
  have hsame : ∀ v ∈ s.underway, ∀ o ∈ v.owners, (s.purge i).cart o = s.cart o := by
    intro v hv o ho
    rw [hcart]
    have hall := hkept v hv o ho
    cases hc : s.cart o with
    | none => rfl
    | some c =>
        rw [hc, Option.all_some] at hall
        simp only [Option.filter, hall, if_true]
  refine ⟨⟨sound_purge h.sound i, h.threads, h.apart, h.arrived,
    fun o => if ∀ v ∈ s.underway, o ∉ v.owners then (s.purge i).cart o else B o, ?_, ?_, ?_⟩,
    fun j => ⟨le_refl _, fun v hv _ => ⟨hv, hsame v hv⟩, fun hf => hf, List.suffix_cons _ _⟩⟩
  · refine .cons hledger.follows (.purged rfl rfl fun o => ?_)
    by_cases hidle : ∀ v ∈ s.underway, o ∉ v.owners
    · simp only [if_pos hidle, hcart, hledger.idle o hidle]
      cases hB : B o with
      | none => exact .inl rfl
      | some c =>
          by_cases hl : lapsed s.now c = true
          · exact .inr ⟨c, rfl, hl, by simp [Option.filter, hl]⟩
          · exact .inl (by simp [Option.filter, hl])
    · exact .inl (if_neg hidle)
  · intro o ho
    exact (if_pos ho).symm
  · intro v hv o ho
    have hbusy : ¬ ∀ v ∈ s.underway, o ∉ v.owners := fun hidle => hidle v hv ho
    simp only [if_neg hbusy]
    exact hledger.before v hv o ho

/-! ### Every statement keeps the contract -/

/-- What a statement does when it has nothing to wait for. -/
theorem exec_cases {o : CartOp} {r : Except Fault o.Res}
    (h : guarded CartOp.exec Apart i o x s = some (r, t)) :
    Apart i o x s ∧ s.now ≤ x.now ∧
      ((o.canFail = true ∧ (∃ fault, r = .error fault) ∧ t = { s with now := x.now }) ∨
        (r, t) = o.perform i x { s with now := x.now }) := by
  unfold guarded at h
  by_cases hapart : Apart i o x s
  · rw [if_pos hapart] at h
    unfold CartOp.exec at h
    by_cases hnow : x.now < s.now
    · simp [hnow] at h
    · simp only [if_neg hnow] at h
      refine ⟨hapart, not_lt.mp hnow, ?_⟩
      cases hf : x.fault.filter fun _ => o.canFail with
      | none =>
          simp only [hf] at h
          exact .inr (Option.some.inj h).symm
      | some fault =>
          simp only [hf] at h
          obtain ⟨rfl, rfl⟩ := Prod.mk.inj (Option.some.inj h)
          have hfail : o.canFail = true := (Option.filter_eq_some_iff.mp hf).2
          exact .inl ⟨hfail, ⟨fault, rfl⟩, rfl⟩
  · rw [if_neg hapart] at h
    cases h

theorem step_kept {o : CartOp} {r : Except Fault o.Res} (h : Inv B₀ s) (hpre : Pre i o s)
    (hexec : guarded CartOp.exec Apart i o x s = some (r, t)) :
    Inv B₀ t ∧ ∀ j, j ≠ i → Rely j s t := by
  obtain ⟨hapart, hnow, hdone⟩ := exec_cases hexec
  obtain ⟨hinv, hrely⟩ := h.wait hnow
  rcases hdone with ⟨-, -, rfl⟩ | hperform
  · exact ⟨hinv, fun j _ => hrely j⟩
  have hpre' : Pre i o { s with now := x.now } := Pre.stable (hrely i) hpre
  suffices hstep : Inv B₀ (o.perform i x { s with now := x.now }).2 ∧
      ∀ j, j ≠ i → Rely j { s with now := x.now } (o.perform i x { s with now := x.now }).2 by
    rw [← hperform] at hstep
    exact ⟨hstep.1, fun j hj => (hrely j).trans (hstep.2 j hj)⟩
  clear hperform hexec hpre
  cases o with
  | arrive request => exact hinv.arrive hpre' hapart
  | purge =>
      obtain ⟨hkept, hothers⟩ := hinv.purge hapart
      exact ⟨hkept, fun j _ => hothers j⟩
  | answer a => exact hinv.answered hpre'
  | createCart id =>
      cases id with
      | some id =>
          obtain ⟨v, B, rfl, hat, hfits⟩ := hpre'
          exact (works_perform hinv hat hfits (by simp) (by simp) (by simp) (by simp)).inv hinv
            hat.mem
      | none =>
          obtain ⟨v, B, rfl, hat, -⟩ := hpre'
          simp only [CartOp.perform]
          rcases insertCart_guest hinv.sound x.token with ⟨fault, herr⟩ | ⟨hok, hnone, hchanged⟩
          · rw [herr]
            exact ⟨hinv, fun j _ => .refl⟩
          · rw [hok]
            exact hinv.draw hat.mem hnone hchanged hapart
  | _ =>
      obtain ⟨v, B, rfl, hat, hfits⟩ := hpre'
      exact (works_perform hinv hat hfits (by simp) (by simp) (by simp) (by simp)).inv hinv hat.mem

/-- What the calls promise each other. -/
def contract (B₀ : Baskets) : Contract CartOp CartOp.Res Fault CartDesk CartInput where
  exec := guarded CartOp.exec Apart
  Inv := Inv B₀
  Rely := Rely
  pre := Pre
  rely_refl _ _ := .refl
  rely_trans := Rely.trans
  pre_stable hr hp := hp.stable hr
  fresh i s := ∀ v ∈ s.underway, v.thread ≠ i
  fresh_stable hr hf := hr.fresh hf
  step := step_kept

/-! ### What a call knows -/

/-- The call `v` is under way since before `since`, and its carts are as in `B`. -/
structure Holding (v : Visit) (B : Baskets) (since : Instant) (s : CartDesk) : Prop extends
    At v B s where
  arrived : v.arrived ≤ since
  since : since ≤ s.now

variable {w : Visit} {since now : Instant} {asked : Option CartOwner} {wanted : LineKey → ℤ}
  {coupon : Option String} {c' : CartRow} {β : Type}

theorem Holding.stable (h : Holding v B since s) (hr : Rely v.thread s t) : Holding v B since t :=
  ⟨h.toAt.stable hr, h.arrived, h.since.trans hr.now⟩

theorem Holding.later (h : Holding v B since s) : Holding v B s.now s :=
  ⟨h.toAt, h.arrived.trans h.since, le_refl _⟩

/-- What is known of a call at its last statement answers it. -/
theorem Holding.ready (h : Holding v B since s) {a : CartAnswer} (hs : Settles v B a since) :
    Ready v.thread a s := ⟨v, B, rfl, h.toAt, hs.later h.since⟩

/-- A cart that is live later is live now. -/
theorem live_of_le {now later : Instant} (hle : now ≤ later) (h : c.live later = true) :
    c.live now = true := by
  unfold CartRow.live at h ⊢
  cases he : c.expiresAt with
  | none => simp
  | some t =>
      rw [he] at h
      simp only [Option.all_some, Bool.or_eq_true, decide_eq_true_eq] at h ⊢
      rcases h with h | h
      · exact .inl h
      · exact .inr (lt_of_le_of_lt hle h)

theorem not_live_of_le {now later : Instant} (hle : now ≤ later) (h : c.live now = false) :
    c.live later = false := by
  cases hl : c.live later with
  | false => rfl
  | true =>
      rw [live_of_le hle hl] at h
      cases h

/-- Where nothing of the call's is changed, nothing is. -/
theorem settles_same {a : CartAnswer}
    (h : ∀ at_, since ≤ at_ → ∀ B₀ : Baskets, (∀ o ∈ v.owners, B₀ o = v.before o) →
      CartEvent.Outcome ⟨v.thread, v.request, a, v.arrived, at_⟩ B₀ B₀) :
    Settles v v.before a since := by
  intro at_ hat B₀ hagree
  have hsame : (fun o => if o ∈ v.owners then v.before o else B₀ o) = B₀ := by
    funext o
    by_cases ho : o ∈ v.owners
    · rw [if_pos ho, hagree o ho]
    · rw [if_neg ho]
  rw [hsame]
  exact h at_ hat B₀ hagree

/-- Where one cart of the call's is changed, that one is. -/
theorem settles_put {a : CartAnswer} (ho : o ∈ v.owners)
    (h : ∀ at_, since ≤ at_ → ∀ B₀ : Baskets, (∀ o ∈ v.owners, B₀ o = v.before o) →
      CartEvent.Outcome ⟨v.thread, v.request, a, v.arrived, at_⟩ B₀ (B₀.put o c)) :
    Settles v (Baskets.put v.before o c) a since := by
  intro at_ hat B₀ hagree
  have hput : (fun o' => if o' ∈ v.owners then Baskets.put v.before o c o' else B₀ o') =
      B₀.put o c := by
    funext o'
    by_cases he : o' = o
    · subst he
      simp [ho, Baskets.put]
    · by_cases ho' : o' ∈ v.owners
      · simp [ho', he, Baskets.put, hagree o' ho']
      · simp [ho', he, Baskets.put]
  rw [hput]
  exact h at_ hat B₀ hagree

theorem settles_refused {fault : Fault} : Settles v v.before (.error fault) since :=
  settles_same fun _ _ _ _ => .refused rfl

/-- What the call wants of the cart `c`, whenever it is answered from `since` on. -/
def Wished (v : Visit) (since : Instant) (o : CartOwner) (c : CartRow) (wanted : LineKey → ℤ)
    (coupon : Option String) : Prop :=
  ∀ (e : CartEvent) (B₀ : Baskets), e.arrived = v.arrived → since ≤ e.answered →
    (∀ o ∈ v.owners, B₀ o = v.before o) → e.Wish B₀ v.request o c wanted coupon

theorem Wished.later {later : Instant} (h : Wished v since o c wanted coupon)
    (hle : since ≤ later) : Wished v later o c wanted coupon :=
  fun e B₀ ha ht => h e B₀ ha (hle.trans ht)

/-- A call that is broken off has left the cart as it was or changed. -/
theorem Wished.broken (h : Wished v since o c wanted coupon) (ho : o ∈ v.owners)
    (hc : c' = c ∨ c.Becomes c' wanted coupon ∧ c'.expiresAt = c.expiresAt) (fault : Fault) :
    Settles v (Baskets.put v.before o c') (.error fault) since :=
  settles_put ho fun _ hat B₀ hagree => .broken (h _ B₀ rfl hat hagree) hc rfl

/-! ### Statements in a call -/

/-- One statement and the rest of the call. -/
theorem obeys_run {op : CartOp} {f : op.Res → CartCall β} {Q : Except Fault β → CartDesk → Prop}
    (hpre : Pre i op s)
    (hok : ∀ u x a t, Rely i s u → Inv B₀ u → Apart i op x u → op.perform i x u = (.ok a, t) →
      (contract B₀).Obeys i Q (f a) t)
    (herr : ∀ u x e t, Rely i s u → Inv B₀ u →
      op.canFail = true ∧ t = u ∨ op.perform i x u = (.error e, t) →
      ∀ w, Rely i t w → Q (.error e) w) :
    (contract B₀).Obeys i Q (CartService.run op >>= f) s := by
  refine Contract.Obeys.perform (C := contract B₀) hpre (fun s₁ x a s₂ h₁ hi he => ?_)
    fun s₁ x e s₂ h₁ hi he => ?_
  · obtain ⟨hapart, hnow, hdone⟩ := exec_cases he
    obtain ⟨hinv, hrely⟩ := Inv.wait hi hnow
    rcases hdone with ⟨-, ⟨fault, hf⟩, -⟩ | hperform
    · cases hf
    · exact hok _ x a s₂ (Rely.trans h₁ (hrely i)) hinv hapart hperform.symm
  · obtain ⟨-, hnow, hdone⟩ := exec_cases he
    obtain ⟨hinv, hrely⟩ := Inv.wait hi hnow
    rcases hdone with ⟨hfail, -, rfl⟩ | hperform
    · exact herr _ x e _ (Rely.trans h₁ (hrely i)) hinv (.inl ⟨hfail, rfl⟩)
    · exact herr _ x e s₂ (Rely.trans h₁ (hrely i)) hinv (.inr hperform.symm)

/-- A call ends with its last statement. -/
theorem obeys_last {p : CartCall β} {Q : Except Fault β → CartDesk → Prop}
    (h : (contract B₀).Obeys i Q (p >>= Pure.pure) s) : (contract B₀).Obeys i Q p s := by
  rw [Prog.bind_pure] at h
  exact h

/-- A statement that only looks. -/
theorem obeys_look {op : CartOp} {f : op.Res → CartCall β}
    {Q : Except Fault β → CartDesk → Prop} (h : Holding v B since s)
    (hpre : Pre v.thread op s) (hlook : ∀ i x u, (op.perform i x u).2 = u)
    (hok : ∀ x a u, Holding v B since u → Inv B₀ u → (op.perform v.thread x u).1 = .ok a →
      (contract B₀).Obeys v.thread Q (f a) u)
    (herr : ∀ e u, Holding v B since u → Q (.error e) u) :
    (contract B₀).Obeys v.thread Q (CartService.run op >>= f) s := by
  refine obeys_run hpre (fun u x a t hr hi _ hp => ?_) fun u x e t hr _ ht w hw => ?_
  · have ht : t = u := by
      have := hlook v.thread x u
      rw [hp] at this
      exact this
    subst ht
    exact hok x a t (h.stable hr) hi (by rw [hp])
  · have ht' : t = u := by
      rcases ht with ⟨-, rfl⟩ | hp
      · rfl
      · have := hlook v.thread x u
        rw [hp] at this
        exact this
    subst ht'
    exact herr e w ((h.stable hr).stable hw)

/-- A statement that changes the cart in hand. -/
theorem obeys_change {op : CartOp} {f : op.Res → CartCall β}
    {Q : Except Fault β → CartDesk → Prop} {g : CartDesk → CartRow} (h : Holding v B since s)
    (ho : o ∈ v.owners) (hB : B o = some c) (hpre : Pre v.thread op s)
    (hdone : ∀ x u, u.Sound → u.cart o = some c →
      (∃ a, (op.perform v.thread x u).1 = .ok a) ∧ Changed u (op.perform v.thread x u).2 o (g u))
    (hok : ∀ x a u t, Inv B₀ u → u.cart o = some c → (op.perform v.thread x u).1 = .ok a →
      since ≤ u.now → Holding v (Baskets.put B o (g u)) u.now t →
      (contract B₀).Obeys v.thread Q (f a) t)
    (herr : ∀ e u, Holding v B since u → Q (.error e) u) :
    (contract B₀).Obeys v.thread Q (CartService.run op >>= f) s := by
  have hcart : ∀ u, Rely v.thread s u → u.cart o = some c := by
    intro u hr
    rw [(h.stable hr).cart o ho, hB]
  refine obeys_run hpre (fun u x a t hr hi _ hp => ?_) fun u x e t hr hi ht w hw => ?_
  · have hu := h.stable hr
    obtain ⟨-, hchanged⟩ := hdone x u hi.sound (hcart u hr)
    rw [hp] at hchanged
    refine hok x a u t hi (hcart u hr) (by rw [hp]) hu.since
      ⟨⟨?_, fun o' ho' => ?_⟩, hu.later.arrived, hchanged.now.symm.le⟩
    · rw [hchanged.underway]
      exact hu.mem
    · rw [hchanged.cart]
      by_cases he : o' = o
      · subst he
        rw [Baskets.put, Function.update_self, Baskets.put, Function.update_self]
      · rw [Baskets.put, Function.update_of_ne he, Baskets.put, Function.update_of_ne he]
        exact hu.cart o' ho'
  · rcases ht with ⟨-, rfl⟩ | hp
    · exact herr e w ((h.stable hr).stable hw)
    · obtain ⟨⟨a, ha⟩, -⟩ := hdone x u hi.sound (hcart u hr)
      rw [hp] at ha
      cases ha

/-- The caller's cart is looked for. -/
theorem obeys_find {f : Option CartRow → CartCall β} {Q : Except Fault β → CartDesk → Prop}
    (h : Holding v B since s) (hasked : ∀ o, asked = some o → o ∈ v.owners)
    (hfound : ∀ o c u, asked = some o → B o = some c → c.live u.now = true → c.Lines →
      since ≤ u.now → Holding v B u.now u → (contract B₀).Obeys v.thread Q (f (some c)) u)
    (hmissing : ∀ u, (∀ o, asked = some o → ∀ c, B o = some c → c.live u.now = false) →
      since ≤ u.now → Holding v B u.now u → (contract B₀).Obeys v.thread Q (f none) u)
    (herr : ∀ e u, Holding v B since u → Q (.error e) u) :
    (contract B₀).Obeys v.thread Q (CartService.find asked >>= f) s := by
  cases asked with
  | none => exact hmissing s (fun o ho => by cases ho) h.since h.later
  | some o =>
      have ho := hasked o rfl
      refine obeys_look h ⟨v, B, rfl, h.toAt, trivial⟩ (fun _ _ _ => rfl)
        (fun x a u hu hi ha => ?_) herr
      have hfind : u.findFirst (fun c => o.owns c && c.live u.now) = a := by
        simpa [CartOp.perform] using ha
      rw [findFirst_eq (o := o) hi.sound _ (fun c hc => (Bool.and_eq_true_iff.mp hc).1),
        hu.cart o ho] at hfind
      cases hB : B o with
      | none =>
          rw [hB] at hfind
          subst hfind
          refine hmissing u (fun o' ho' c hc => ?_) hu.since hu.later
          obtain rfl := Option.some.inj ho'
          rw [hB] at hc
          cases hc
      | some c =>
          have howns : o.owns c = true := cart_owns ((hu.cart o ho).trans hB)
          rw [hB, Option.filter_some, howns, Bool.true_and] at hfind
          by_cases hl : c.live u.now = true
          · rw [if_pos hl] at hfind
            subst hfind
            have hlines : c.Lines := hi.sound.lines c (cart_mem ((hu.cart o ho).trans hB))
            exact hfound o c u rfl hB hl hlines hu.since hu.later
          · rw [if_neg hl] at hfind
            subst hfind
            refine hmissing u (fun o' ho' c' hc => ?_) hu.since hu.later
            obtain rfl := Option.some.inj ho'
            rw [hB] at hc
            obtain rfl := Option.some.inj hc
            simpa using hl

end contract

end CartDesk

end BookHouse
