/-
Chat counters and status.

A conversation and its messages change together, when a transaction that has written the
conversation commits, so what the counters say is true of what is committed if it is true of
what such a transaction sees.  It is, except where a call writes over what has happened since it
looked: a reset counter with a message that has not been marked, or a status that opens or ends
the conversation without the time it was closed at.
-/
import BookHouse.Support.ChatDesk
import BookHouse.Lib.Prog

namespace BookHouse

open Prog

namespace ChatDesk

variable {s t : ChatDesk} {i j : TxId} {id : ConversationId} {c : Conversation}
  {messages messages' : MessageId → Option Message} {next next' : ℕ}

/-- The unread messages of a conversation with `p`. -/
def unread (messages : MessageId → Option Message) (next : ℕ) (id : ConversationId)
    (p : MessageId → Message → Bool) : Finset MessageId :=
  (Finset.range next).filter fun m =>
    (messages m).any fun r => r.conversationId = id && r.readAt.isNone && p m r

/-- The row of a conversation says what its messages are. -/
structure Told (messages : MessageId → Option Message) (next : ℕ) (id : ConversationId)
    (c : Conversation) : Prop where
  byCustomer : c.unreadByCustomer =
    (unread messages next id fun _ r => ReadBy.customer.reads r.sender).card
  byStaff : c.unreadByStaff =
    (unread messages next id fun m r => ReadBy.staff.reads r.sender && m ∈ c.sinceEnded).card
  closedAt : c.closedAt.isSome = c.status.ended
  /-- the last message is a customer's and came after the last end -/
  reopened : ∀ m r, c.sinceEnded.head? = some m → messages m = some r → r.conversationId = id →
    r.sender = .customer → c.status.ended = false

/-- **The claim's property**, of what is committed. -/
def CountersTrue (s : ChatDesk) : Prop :=
  ∀ id c, s.conversations.committed id = some c →
    Told s.messages.committed s.messages.next id c

theorem mem_unread {p : MessageId → Message → Bool} {m : MessageId} :
    m ∈ unread messages next id p ↔ m < next ∧ ∃ r, messages m = some r ∧
      r.conversationId = id ∧ r.readAt = none ∧ p m r = true := by
  simp only [unread, Finset.mem_filter, Finset.mem_range, Option.any_eq_true, Bool.and_eq_true,
    decide_eq_true_eq, Option.isNone_iff_eq_none, and_assoc]

/-- The rows of one conversation. -/
def of (messages : MessageId → Option Message) (id : ConversationId) (m : MessageId) :
    Option Message :=
  (messages m).filter fun r => r.conversationId = id

def Bounded (messages : MessageId → Option Message) (next : ℕ) : Prop :=
  ∀ m r, messages m = some r → m < next

theorem of_eq_some {m : MessageId} {r : Message} :
    of messages id m = some r ↔ messages m = some r ∧ r.conversationId = id := by
  simp [of, Option.filter_eq_some_iff]

theorem unread_congr {p : MessageId → Message → Bool} (hb : Bounded messages next)
    (hb' : Bounded messages' next') (h : ∀ m, of messages' id m = of messages id m) :
    unread messages' next' id p = unread messages next id p := by
  ext m
  rw [mem_unread, mem_unread]
  constructor
  · rintro ⟨-, r, hr, hid, hread, hp⟩
    have hr' : of messages id m = some r := (h m).symm.trans (of_eq_some.mpr ⟨hr, hid⟩)
    have hm := (of_eq_some.mp hr').1
    exact ⟨hb m r hm, r, hm, hid, hread, hp⟩
  · rintro ⟨-, r, hr, hid, hread, hp⟩
    have hr' : of messages' id m = some r := (h m).trans (of_eq_some.mpr ⟨hr, hid⟩)
    have hm := (of_eq_some.mp hr').1
    exact ⟨hb' m r hm, r, hm, hid, hread, hp⟩

/-- All that counts for a conversation is its own messages. -/
theorem Told.congr (hb : Bounded messages next) (hb' : Bounded messages' next')
    (h : ∀ m, of messages' id m = of messages id m) (ht : Told messages next id c) :
    Told messages' next' id c where
  byCustomer := by rw [unread_congr hb hb' h, ht.byCustomer]
  byStaff := by rw [unread_congr hb hb' h, ht.byStaff]
  closedAt := ht.closedAt
  reopened m r hm hr hid hsender := by
    have hr' : of messages id m = some r := (h m).symm.trans (of_eq_some.mpr ⟨hr, hid⟩)
    exact ht.reopened m r hm (of_eq_some.mp hr').1 hid hsender

/-! ### What an update makes of a conversation -/

/-- One more message, unread. -/
structure Posted (messages messages' : MessageId → Option Message) (m : MessageId) (r : Message) :
    Prop where
  fresh : messages m = none
  row : messages' m = some r
  unmarked : r.readAt = none
  others : ∀ m', m' ≠ m → messages' m' = messages m'

section posted

variable {p : MessageId → Message → Bool} {m : MessageId} {r : Message}

theorem Posted.not_mem (h : Posted messages messages' m r) : m ∉ unread messages next id p := by
  intro hmem
  obtain ⟨-, r', hr', -⟩ := mem_unread.mp hmem
  rw [h.fresh] at hr'
  cases hr'

/-- The message itself is all that comes to the unread ones. -/
theorem Posted.mem_iff (h : Posted messages messages' m r) (hb : Bounded messages next)
    (hb' : Bounded messages' next') (hid : r.conversationId = id) {m' : MessageId} :
    m' ∈ unread messages' next' id p ↔
      (m' = m ∧ p m r = true) ∨ m' ∈ unread messages next id p := by
  by_cases hm : m' = m
  · subst hm
    rw [or_iff_left h.not_mem, mem_unread]
    constructor
    · rintro ⟨-, r', hr', -, -, hp⟩
      rw [h.row] at hr'
      rw [Option.some.inj hr']
      exact ⟨rfl, hp⟩
    · exact fun hp => ⟨hb' _ r h.row, r, h.row, hid, h.unmarked, hp.2⟩
  · rw [or_iff_right fun hp => hm hp.1, mem_unread, mem_unread, h.others m' hm]
    constructor
    · rintro ⟨-, r', hr', hrest⟩
      exact ⟨hb m' r' hr', r', hr', hrest⟩
    · rintro ⟨-, r', hr', hrest⟩
      exact ⟨hb' m' r' ((h.others m' hm).trans hr'), r', hr', hrest⟩

theorem Posted.card_unread (h : Posted messages messages' m r) (hb : Bounded messages next)
    (hb' : Bounded messages' next') (hid : r.conversationId = id) :
    (unread messages' next' id p).card =
      (unread messages next id p).card + if p m r then 1 else 0 := by
  split
  next hp =>
    rw [← Finset.card_insert_of_notMem h.not_mem]
    congr 1
    ext m'
    rw [h.mem_iff hb hb' hid, Finset.mem_insert, and_iff_left hp]
  next hp =>
    rw [Nat.add_zero]
    congr 1
    ext m'
    rw [h.mem_iff hb hb' hid, or_iff_right fun hm => hp hm.2]

end posted

theorem card_unread_eq_zero {p : MessageId → Message → Bool} (h : ∀ m r, messages m = some r →
    r.conversationId = id → r.readAt = none → p m r ≠ true) :
    (unread messages next id p).card = 0 := by
  rw [Finset.card_eq_zero, Finset.eq_empty_iff_forall_notMem]
  intro m hmem
  obtain ⟨-, r, hr, hid, hread, hp⟩ := mem_unread.mp hmem
  exact h m r hr hid hread hp

/-- Which messages are asked for matters where there is one. -/
theorem unread_congr_of {p q : MessageId → Message → Bool}
    (h : ∀ m r, messages m = some r → p m r = q m r) :
    unread messages next id p = unread messages next id q := by
  ext m
  rw [mem_unread, mem_unread]
  refine and_congr_right fun _ => exists_congr fun r => and_congr_right fun hr => ?_
  rw [h m r hr]

theorem sinceEnded_message {now createdAt : Instant} {current : ConversationStatus} {m : MessageId}
    {sender : MessageSender} {assignTo : Option UserId} :
    (c.write now (.message current m sender createdAt assignTo)).sinceEnded =
      m :: c.sinceEnded := by
  simp [Conversation.write, Conversation.sinceEnded]

theorem afterMessage_customer (current : ConversationStatus) :
    (afterMessage current .customer).status = .opened ∧
      (afterMessage current .customer).reopened = current.ended := by
  cases current <;> exact ⟨rfl, rfl⟩

/-- A message of the staff neither opens nor ends a conversation. -/
theorem afterMessage_of_ne {sender : MessageSender} (h : sender ≠ .customer)
    (current : ConversationStatus) :
    (afterMessage current sender).status.ended = current.ended ∧
      (afterMessage current sender).reopened = false ∧
      (afterMessage current sender).staffUnread = 0 ∧
      (afterMessage current sender).customerUnread = 1 := by
  cases sender with
  | customer => exact absurd rfl h
  | staff | system => cases current <;> exact ⟨rfl, rfl, rfl, rfl⟩

/-- The status that a message is posted with was read before: it has to be open or ended as the
conversation is, unless a customer's message reopens the conversation anyway. -/
def OpenAsRead (current : ConversationStatus) (sender : MessageSender) (c : Conversation) : Prop :=
  current.ended = c.status.ended ∨ (sender = .customer ∧ current.ended = true)

theorem Told.message {now createdAt : Instant} {current : ConversationStatus} {m : MessageId}
    {r : Message} {assignTo : Option UserId} (ht : Told messages next id c)
    (hp : Posted messages messages' m r) (hb : Bounded messages next)
    (hb' : Bounded messages' next') (hid : r.conversationId = id)
    (hread : OpenAsRead current r.sender c) :
    Told messages' next' id (c.write now (.message current m r.sender createdAt assignTo)) := by
  have hsince : unread messages next id (fun m' r' =>
      ReadBy.staff.reads r'.sender && decide (m' ∈ m :: c.sinceEnded)) =
        unread messages next id fun m' r' =>
          ReadBy.staff.reads r'.sender && decide (m' ∈ c.sinceEnded) := by
    refine unread_congr_of fun m' r' hr' => ?_
    have hne : m' ≠ m := by
      rintro rfl
      rw [hp.fresh] at hr'
      cases hr'
    simp [hne]
  have hstaff : (unread messages' next' id fun m' r' =>
      ReadBy.staff.reads r'.sender && decide (m' ∈ m :: c.sinceEnded)).card =
        c.unreadByStaff + if ReadBy.staff.reads r.sender then 1 else 0 := by
    rw [hp.card_unread hb hb' hid, hsince, ← ht.byStaff]
    simp
  have hcustomer : (unread messages' next' id fun _ r' => ReadBy.customer.reads r'.sender).card =
      c.unreadByCustomer + if ReadBy.customer.reads r.sender then 1 else 0 := by
    rw [hp.card_unread hb hb' hid, ← ht.byCustomer]
  refine ⟨?_, ?_, ?_, fun m' r' hm' hr' _ hsender => ?_⟩
  · rw [hcustomer]
    cases r.sender <;> rfl
  · rw [sinceEnded_message, hstaff]
    cases r.sender <;> rfl
  · by_cases hsender : r.sender = .customer
    · obtain ⟨hstatus, hreopened⟩ := afterMessage_customer current
      rw [hsender]
      simp only [Conversation.write, hstatus, hreopened]
      cases hcur : current.ended with
      | true => rfl
      | false =>
          rcases hread with heq | ⟨-, hended⟩
          · exact ht.closedAt.trans (heq.symm.trans hcur)
          · rw [hcur] at hended
            cases hended
    · obtain ⟨hstatus, hreopened, -⟩ := afterMessage_of_ne hsender current
      simp only [Conversation.write, hreopened, hstatus]
      rw [hread.resolve_right fun h => hsender h.1]
      exact ht.closedAt
  · rw [sinceEnded_message] at hm'
    obtain rfl := Option.some.inj hm'
    obtain rfl := Option.some.inj (hp.row.symm.trans hr')
    rw [hsender]
    simp only [Conversation.write, (afterMessage_customer current).1]
    rfl

/-- Messages are marked as read, and nothing else happens to them. -/
def Marked (messages messages' : MessageId → Option Message) (id : ConversationId) (who : ReadBy) :
    Prop :=
  ∀ m, messages' m = messages m ∨ ∃ r now, messages m = some r ∧
    messages' m = some { r with readAt := some now } ∧ r.conversationId = id ∧
      who.reads r.sender = true

theorem Marked.bounded {who : ReadBy} (h : Marked messages messages' id who)
    (hb : Bounded messages next) : Bounded messages' next := by
  intro m r hr
  rcases h m with heq | ⟨r₀, now, hr₀, -⟩
  · exact hb m r (heq.symm.trans hr)
  · exact hb m r₀ hr₀

/-- What the other side has not read stays unread. -/
theorem Marked.unread_eq {who : ReadBy} {p : MessageId → Message → Bool}
    (h : Marked messages messages' id who) (hp : ∀ m r, p m r = true → who.reads r.sender = false) :
    unread messages' next id p = unread messages next id p := by
  ext m
  rw [mem_unread, mem_unread]
  refine and_congr_right fun _ => ?_
  rcases h m with heq | ⟨r, now, hr, hr', -, hreads⟩
  · rw [heq]
  · constructor
    · rintro ⟨r₁, hr₁, -, hread, -⟩
      rw [hr'] at hr₁
      obtain rfl := Option.some.inj hr₁
      cases hread
    · rintro ⟨r₁, hr₁, -, -, hpm⟩
      rw [hr] at hr₁
      obtain rfl := Option.some.inj hr₁
      rw [hp m r hpm] at hreads
      cases hreads

/-- Nothing is left that a reader who resets the counter has not read. -/
def AllRead (messages : MessageId → Option Message) (id : ConversationId) (c : Conversation) :
    ReadBy → Prop
  | .customer => ∀ m r, messages m = some r → r.conversationId = id →
      ReadBy.customer.reads r.sender = true → r.readAt.isSome
  | .staff => ∀ m r, messages m = some r → r.conversationId = id →
      ReadBy.staff.reads r.sender = true → m ∈ c.sinceEnded → r.readAt.isSome

theorem Told.read {now : Instant} {who : ReadBy} (ht : Told messages next id c)
    (hm : Marked messages messages' id who) (hall : AllRead messages' id c who) :
    Told messages' next id (c.write now (.read who)) := by
  have hreopened : ∀ m r, c.sinceEnded.head? = some m → messages' m = some r →
      r.conversationId = id → r.sender = .customer → c.status.ended = false := by
    intro m r hhead hr hid hsender
    rcases hm m with heq | ⟨r₀, now, hr₀, hr', -, -⟩
    · exact ht.reopened m r hhead (heq.symm.trans hr) hid hsender
    · obtain rfl := Option.some.inj (hr'.symm.trans hr)
      exact ht.reopened m r₀ hhead hr₀ hid hsender
  cases who with
  | customer =>
      refine ⟨(card_unread_eq_zero fun m r hr hid hread hp => ?_).symm, ?_, ht.closedAt, hreopened⟩
      · have hsome := hall m r hr hid hp
        rw [hread] at hsome
        cases hsome
      · refine ht.byStaff.trans (congrArg _ (hm.unread_eq fun m r hp => ?_).symm)
        simp only [ReadBy.reads, Bool.and_eq_true, decide_eq_true_eq] at hp
        simp [ReadBy.reads, hp.1]
  | staff =>
      refine ⟨?_, (card_unread_eq_zero fun m r hr hid hread hp => ?_).symm, ht.closedAt, hreopened⟩
      · refine ht.byCustomer.trans (congrArg _ (hm.unread_eq fun m r hp => ?_).symm)
        simpa [ReadBy.reads] using hp
      · obtain ⟨hreads, hsince⟩ := Bool.and_eq_true_iff.mp hp
        have hsome := hall m r hr hid hreads (of_decide_eq_true hsince)
        rw [hread] at hsome
        cases hsome

theorem Told.transition {now : Instant} {current target : ConversationStatus}
    (ht : Told messages next id c) (hopen : target = .pending → c.status.ended = false) :
    Told messages next id (c.write now (.transition current target)) := by
  cases target with
  | pending =>
      have hended := hopen rfl
      exact ⟨ht.byCustomer, ht.byStaff, ht.closedAt.trans hended, fun _ _ _ _ _ _ => rfl⟩
  | opened => exact ⟨ht.byCustomer, ht.byStaff, rfl, fun _ _ _ _ _ _ => rfl⟩
  | resolved | closed =>
      refine ⟨ht.byCustomer, (card_unread_eq_zero fun m r _ _ _ hp => ?_).symm, rfl,
        fun m r hm => by cases hm⟩
      -- nothing has been posted since
      simp [Conversation.sinceEnded, Conversation.write, ConversationStatus.ended] at hp

/-! ### What the others leave alone -/

/-- The transaction has written nothing. -/
structure Clean (i : TxId) (s : ChatDesk) : Prop where
  conversations : ∀ k, s.conversations.own i k = none
  messages : ∀ m, s.messages.own i m = none

structure Rely (i : TxId) (s t : ChatDesk) : Prop where
  conversations : ∀ k, t.conversations.own i k = s.conversations.own i k
  messages : ∀ m, t.messages.own i m = s.messages.own i m
  kept : ∀ m, (s.messages.own i m).isSome → t.messages.committed m = s.messages.committed m
  /-- a conversation that is locked gets no messages -/
  locked : ∀ k, (s.conversations.own i k).isSome → ∀ m,
    of t.messages.committed k m = of s.messages.committed k m

theorem Rely.refl : Rely i s s := ⟨fun _ => rfl, fun _ => rfl, fun _ _ => rfl, fun _ _ _ => rfl⟩

theorem Rely.trans {u : ChatDesk} (h : Rely i s t) (h' : Rely i t u) : Rely i s u where
  conversations k := (h'.conversations k).trans (h.conversations k)
  messages m := (h'.messages m).trans (h.messages m)
  kept m hm := (h'.kept m (by rw [h.messages]; exact hm)).trans (h.kept m hm)
  locked k hk m := (h'.locked k (by rw [h.conversations]; exact hk) m).trans (h.locked k hk m)

theorem Clean.stable (h : Rely i s t) (hc : Clean i s) : Clean i t :=
  ⟨fun k => (h.conversations k).trans (hc.conversations k),
    fun m => (h.messages m).trans (hc.messages m)⟩

/-- Where nothing is committed, the others notice nothing. -/
theorem rely_of_committed (hconv : ∀ k, t.conversations.own j k = s.conversations.own j k)
    (hown : ∀ m, t.messages.own j m = s.messages.own j m)
    (hcommitted : ∀ m, t.messages.committed m = s.messages.committed m) : Rely j s t :=
  ⟨hconv, hown, fun m _ => hcommitted m, fun k _ m => by unfold of; rw [hcommitted]⟩

/-- Every message is one of a conversation. -/
def Inv (s : ChatDesk) : Prop :=
  ∀ m r, s.messages.committed m = some r → r.conversationId < s.conversations.next

theorem bounded_committed : Bounded s.messages.committed s.messages.next :=
  fun _ _ h => Table.lt_next h

theorem bounded_seen : Bounded (s.messages.seen i) s.messages.next := fun m r h => by
  by_contra hge
  rw [Table.seen_unborn (Nat.le_of_not_lt hge)] at h
  cases h

/-- What a transaction has written is in one conversation. -/
def Within (s : ChatDesk) (i : TxId) (id : ConversationId) : Prop :=
  ∀ m v, s.messages.own i m = some v → ∃ r, v = some r ∧ r.conversationId = id ∧
    ∀ r₀, s.messages.committed m = some r₀ → r₀.conversationId = id

/-- A transaction that commits has the conversation that it has written in. -/
def Contained (s : ChatDesk) (i : TxId) : Prop :=
  ∃ id, (s.conversations.own i id).isSome ∧ Within s i id

theorem Within.stable (h : Rely i s t) (hw : Within s i id) : Within t i id := by
  intro m v hv
  rw [h.messages] at hv
  rw [h.kept m (by rw [hv]; rfl)]
  exact hw m v hv

theorem Contained.stable (h : Rely i s t) (hc : Contained s i) : Contained t i := by
  obtain ⟨id, hown, hw⟩ := hc
  exact ⟨id, by rw [h.conversations]; exact hown, hw.stable h⟩

/-- What a transaction has done before it writes the conversation. -/
def Prepared (s : ChatDesk) (i : TxId) (id : ConversationId) : ConversationWrite → Prop
  | .message _ m sender _ _ => ∃ r, s.messages.own i m = some (some r) ∧
      s.messages.committed m = none ∧ r.conversationId = id ∧ r.sender = sender ∧
      r.readAt = none ∧ ∀ m', m' ≠ m → s.messages.own i m' = none
  | .read who => ∀ m v, s.messages.own i m = some v → ∃ r now,
      v = some { r with readAt := some now } ∧ s.messages.committed m = some r ∧
      r.conversationId = id ∧ who.reads r.sender = true
  | .transition .. => ∀ m, s.messages.own i m = none

theorem Prepared.stable {w : ConversationWrite} (h : Rely i s t) (hp : Prepared s i id w) :
    Prepared t i id w := by
  cases w with
  | message current m sender createdAt assignTo =>
      obtain ⟨r, hown, hfresh, hid, hsender, hread, hothers⟩ := hp
      exact ⟨r, (h.messages m).trans hown, (h.kept m (by rw [hown]; rfl)).trans hfresh, hid,
        hsender, hread, fun m' hm' => (h.messages m').trans (hothers m' hm')⟩
  | read who =>
      intro m v hv
      rw [h.messages] at hv
      rw [h.kept m (by rw [hv]; rfl)]
      exact hp m v hv
  | transition current target => exact fun m => (h.messages m).trans (hp m)

theorem Prepared.within {w : ConversationWrite} (hp : Prepared s i id w) : Within s i id := by
  intro m v hv
  cases w with
  | message current m₀ sender createdAt assignTo =>
      obtain ⟨r, hown, hfresh, hid, -, -, hothers⟩ := hp
      by_cases hm : m = m₀
      · subst hm
        obtain rfl := Option.some.inj (hown.symm.trans hv)
        exact ⟨r, rfl, hid, fun r₀ hr₀ => by rw [hfresh] at hr₀; cases hr₀⟩
      · cases (hothers m hm).symm.trans hv
  | read who =>
      obtain ⟨r, now, rfl, hr, hid, -⟩ := hp m v hv
      exact ⟨_, rfl, hid, fun r₀ hr₀ => by rw [← Option.some.inj (hr.symm.trans hr₀)]; exact hid⟩
  | transition current target => cases (hp m).symm.trans hv

/-- The statement that a write of the conversation follows on shows in what is seen. -/
theorem Prepared.posted {current : ConversationStatus} {m : MessageId} {sender : MessageSender}
    {createdAt : Instant} {assignTo : Option UserId}
    (hp : Prepared s i id (.message current m sender createdAt assignTo)) :
    ∃ r, Posted s.messages.committed (s.messages.seen i) m r ∧ r.conversationId = id ∧
      r.sender = sender := by
  obtain ⟨r, hown, hfresh, hid, hsender, hread, hothers⟩ := hp
  exact ⟨r, ⟨hfresh, Table.seen_of_own hown, hread, fun m' hm' =>
    Table.seen_of_own_none (hothers m' hm')⟩, hid, hsender⟩

theorem Prepared.marked {who : ReadBy} (hp : Prepared s i id (.read who)) :
    Marked s.messages.committed (s.messages.seen i) id who := by
  intro m
  cases hown : s.messages.own i m with
  | none => exact .inl (Table.seen_of_own_none hown)
  | some v =>
      obtain ⟨r, now, rfl, hr, hid, hreads⟩ := hp m v hown
      exact .inr ⟨r, now, hr, Table.seen_of_own hown, hid, hreads⟩

/-- A row as a conversation starts. -/
structure New (c : Conversation) : Prop where
  staff : c.unreadByStaff = 0
  customer : c.unreadByCustomer = 0
  closedAt : c.closedAt = none
  opened : c.status.ended = false
  history : c.history = []

/-- What a transaction has to know before a statement. -/
def chatPre (i : TxId) : ChatOp → ChatDesk → Prop
  | .create row, _ => New row
  | .createMessage _, s | .markMessages .., s => Clean i s
  | .update id w, s => s.conversations.own i id = none ∧ Prepared s i id w
  | .commit, s => Contained s i
  | _, _ => True

theorem chatPre_stable {o : ChatOp} (h : Rely i s t) (hp : chatPre i o s) : chatPre i o t := by
  cases o with
  | create row => exact hp
  | createMessage row => exact Clean.stable h hp
  | markMessages id who => exact Clean.stable h hp
  | update id w => exact ⟨(h.conversations id).trans hp.1, hp.2.stable h⟩
  | commit => exact Contained.stable h hp
  | _ => trivial

/-! ### The statements -/

theorem create_cases {row : Conversation} {r : Except Fault (ConversationId × Conversation)}
    (h : s.create i row = some (r, t)) :
    t = s ∨ t = { s with conversations := s.conversations.insertNow row } := by
  unfold ChatDesk.create at h
  split at h
  · cases h
  split at h
  · exact .inl (Prod.mk.inj (Option.some.inj h)).2.symm
  · exact .inr (Prod.mk.inj (Option.some.inj h)).2.symm

theorem createMessage_cases {row : Message} {r : Except Fault (MessageId × Message)}
    (h : s.createMessage i row = (r, t)) :
    ((∃ e, r = .error e) ∧ t = s) ∨ (r = .ok (s.messages.next, row) ∧
      t = { s with messages := s.messages.insert i row }) := by
  unfold ChatDesk.createMessage at h
  split at h
  · obtain ⟨rfl, rfl⟩ := Prod.mk.inj h
    exact .inr ⟨rfl, rfl⟩
  · obtain ⟨rfl, rfl⟩ := Prod.mk.inj h
    exact .inl ⟨⟨_, rfl⟩, rfl⟩

theorem update_cases {w : ConversationWrite} {now : Instant} {r : Except Fault Conversation}
    (h : s.update i id w now = some (r, t)) :
    ((∃ e, r = .error e) ∧ t = s) ∨ ∃ c conversations, s.conversations.seen i id = some c ∧
      s.conversations.write i id (some (c.write now w)) = some conversations ∧
      t = { s with conversations } := by
  unfold ChatDesk.update at h
  split at h
  · obtain ⟨rfl, rfl⟩ := Prod.mk.inj (Option.some.inj h)
    exact .inl ⟨⟨_, rfl⟩, rfl⟩
  next c hc =>
    dsimp only at h
    split at h
    · cases h
    split at h
    · obtain ⟨rfl, rfl⟩ := Prod.mk.inj (Option.some.inj h)
      exact .inl ⟨⟨_, rfl⟩, rfl⟩
    · obtain ⟨conversations, hw, heq⟩ := Option.map_eq_some_iff.mp h
      exact .inr ⟨c, conversations, hc, hw, (Prod.mk.inj heq).2.symm⟩

/-- In the other conversations a transaction sees what is committed. -/
theorem Within.of_seen {k : ConversationId} (hw : Within s i id) (hne : id ≠ k) (m : MessageId) :
    of (s.messages.seen i) k m = of s.messages.committed k m := by
  cases hown : s.messages.own i m with
  | none =>
      unfold of
      rw [Table.seen_of_own_none hown]
  | some v =>
      obtain ⟨r, rfl, hid, hold⟩ := hw m v hown
      have hseen : of (s.messages.seen i) k m = none := by
        unfold of
        rw [Table.seen_of_own hown]
        simp [hid, hne]
      have hcommitted : of s.messages.committed k m = none := by
        unfold of
        cases hr : s.messages.committed m with
        | none => rfl
        | some r₀ => simp [hold r₀ hr, hne]
      rw [hseen, hcommitted]

theorem rollback_rely (hj : j ≠ i) : Rely j s (s.rollback i) :=
  rely_of_committed (fun _ => Table.own_rollback_other hj) (fun _ => Table.own_rollback_other hj)
    fun _ => rfl

theorem commit_rely (hc : Contained s i) (hj : j ≠ i) : Rely j s (s.commit i) := by
  have hfree : ∀ m, (s.messages.own j m).isSome → s.messages.own i m = none := fun m hm => by
    obtain ⟨v, hv⟩ := Option.isSome_iff_exists.mp hm
    cases hi : s.messages.own i m with
    | none => rfl
    | some v' => exact absurd (Table.own_inj hv hi) hj
  refine ⟨fun k => Table.own_commit_other hj, fun m => Table.own_commit_other hj,
    fun m hm => Table.seen_of_own_none (hfree m hm), fun k hk m => ?_⟩
  obtain ⟨id, hid, hw⟩ := hc
  have hne : id ≠ k := by
    rintro rfl
    obtain ⟨v, hv⟩ := Option.isSome_iff_exists.mp hk
    obtain ⟨v', hv'⟩ := Option.isSome_iff_exists.mp hid
    exact hj (Table.own_inj hv hv')
  exact hw.of_seen hne m

theorem commit_inv (hs : s.Inv) (hc : Contained s i) : (s.commit i).Inv := by
  obtain ⟨id, hid, hw⟩ := hc
  intro m r hr
  cases hown : s.messages.own i m with
  | none => exact hs m r ((Table.seen_of_own_none hown).symm.trans hr)
  | some v =>
      obtain ⟨r', rfl, hr', -⟩ := hw m v hown
      obtain rfl := Option.some.inj ((Table.seen_of_own hown).symm.trans hr)
      show r'.conversationId < s.conversations.next
      by_contra hge
      rw [hr'] at hge
      rw [Table.own_unborn (Nat.le_of_not_lt hge)] at hid
      cases hid

theorem perform_keeps {o : ChatOp} {x : ChatInput} {r : Except Fault o.Res} (hs : s.Inv)
    (hp : chatPre i o s) (h : o.perform i x s = some (r, t)) :
    t.Inv ∧ ∀ j, j ≠ i → Rely j s t := by
  cases o with
  | create row =>
      rcases create_cases h with rfl | rfl
      · exact ⟨hs, fun _ _ => Rely.refl⟩
      · exact ⟨fun m r hr => Nat.lt_succ_of_lt (hs m r hr),
          fun j _ => rely_of_committed (fun _ => rfl) (fun _ => rfl) fun _ => rfl⟩
  | createMessage row =>
      rcases createMessage_cases (Option.some.inj h) with ⟨-, rfl⟩ | ⟨-, rfl⟩
      · exact ⟨hs, fun _ _ => Rely.refl⟩
      · exact ⟨hs, fun j hj =>
          rely_of_committed (fun _ => rfl) (fun _ => Table.own_insert_other hj) fun _ => rfl⟩
  | markMessages id who =>
      obtain ⟨u, hu, heq⟩ := Option.map_eq_some_iff.mp h
      obtain ⟨-, rfl⟩ := Prod.mk.inj heq
      obtain ⟨messages, hup, rfl⟩ := Option.map_eq_some_iff.mp hu
      exact ⟨fun m r hr => hs m r ((Table.committed_update hup).symm.trans hr), fun j hj =>
        rely_of_committed (fun _ => rfl) (fun _ => Table.own_update_other hup hj)
          fun _ => Table.committed_update hup⟩
  | update id w =>
      rcases update_cases h with ⟨-, rfl⟩ | ⟨c, conversations, -, hw, rfl⟩
      · exact ⟨hs, fun _ _ => Rely.refl⟩
      · refine ⟨fun m r hr => ?_, fun j hj =>
          rely_of_committed (fun _ => Table.own_write_other hw hj) (fun _ => rfl) fun _ => rfl⟩
        exact lt_of_lt_of_eq (hs m r hr) (Table.next_write hw).symm
  | commit =>
      obtain ⟨-, rfl⟩ := Prod.mk.inj (Option.some.inj h)
      exact ⟨commit_inv hs hp, fun j hj => commit_rely hp hj⟩
  | rollback =>
      obtain ⟨-, rfl⟩ := Prod.mk.inj (Option.some.inj h)
      exact ⟨hs, fun j hj => rollback_rely hj⟩
  | customer | find | findOpen | findGuest | audit =>
      obtain ⟨-, rfl⟩ := Prod.mk.inj (Option.some.inj h)
      exact ⟨hs, fun _ _ => Rely.refl⟩

/-- A statement ends with a fault, or does what it is for. -/
theorem exec_cases {o : ChatOp} {x : ChatInput} {r : Except Fault o.Res}
    (h : o.exec i x s = some (r, t)) :
    (∃ e, r = .error e ∧ t = o.dropped i s) ∨ o.perform i x s = some (r, t) := by
  unfold ChatOp.exec at h
  cases hf : x.fault with
  | none =>
      refine .inr ?_
      cases o with
      | rollback => exact h
      | _ => simpa only [hf] using h
  | some e =>
      cases o with
      | rollback => exact .inr h
      | _ =>
          simp only [hf] at h
          obtain ⟨rfl, rfl⟩ := Prod.mk.inj (Option.some.inj h)
          exact .inl ⟨_, rfl, rfl⟩

theorem dropped_keeps (hs : s.Inv) (o : ChatOp) :
    (o.dropped i s).Inv ∧ ∀ j, j ≠ i → Rely j s (o.dropped i s) := by
  cases o with
  | commit => exact ⟨hs, fun j hj => rollback_rely hj⟩
  | _ => exact ⟨hs, fun _ _ => Rely.refl⟩

def chatContract : Contract ChatOp ChatOp.Res Fault ChatDesk ChatInput where
  exec := ChatOp.exec
  Inv := Inv
  Rely := Rely
  pre := chatPre
  rely_refl _ _ := Rely.refl
  rely_trans := Rely.trans
  pre_stable := chatPre_stable
  fresh := Clean
  fresh_stable := Clean.stable
  step hs hp h := by
    rcases exec_cases h with ⟨e, -, rfl⟩ | hperform
    · exact dropped_keeps hs _
    · exact perform_keeps hs hp hperform

/-! ### What is said stays true -/

/-- What is said of every conversation is true, and what is about to be said of one is true of
what its transaction sees. -/
structure Consistent (s : ChatDesk) : Prop where
  committed : s.CountersTrue
  own : ∀ i id c, s.conversations.own i id = some (some c) →
    Told (s.messages.seen i) s.messages.next id c

/-- What the others do is not seen by who has the conversation. -/
theorem Told.stable (h : Rely i s t) (hown : (s.conversations.own i id).isSome)
    (ht : Told (s.messages.seen i) s.messages.next id c) :
    Told (t.messages.seen i) t.messages.next id c := by
  refine ht.congr bounded_seen bounded_seen fun m => ?_
  cases hm : s.messages.own i m with
  | none =>
      unfold of
      rw [Table.seen_of_own_none hm, Table.seen_of_own_none ((h.messages m).trans hm)]
      exact h.locked id hown m
  | some v =>
      unfold of
      rw [Table.seen_of_own hm, Table.seen_of_own ((h.messages m).trans hm)]

/-- A step leaves the others' part alone. -/
theorem Consistent.step (h : Consistent s) (hrely : ∀ j, j ≠ i → Rely j s t)
    (hcommitted : t.CountersTrue)
    (hown : ∀ id c, t.conversations.own i id = some (some c) →
      Told (t.messages.seen i) t.messages.next id c) : Consistent t := by
  refine ⟨hcommitted, fun j id c hc => ?_⟩
  by_cases hj : j = i
  · subst hj
    exact hown id c hc
  · have hr := hrely j hj
    have hold : s.conversations.own j id = some (some c) := (hr.conversations id).symm.trans hc
    exact (h.own j id c hold).stable hr (by rw [hold]; rfl)

theorem CountersTrue.congr (h : s.CountersTrue)
    (hconv : ∀ k, t.conversations.committed k = s.conversations.committed k)
    (hmessages : ∀ m, t.messages.committed m = s.messages.committed m) : t.CountersTrue := by
  intro id c hc
  rw [hconv] at hc
  refine (h id c hc).congr bounded_committed bounded_committed fun m => ?_
  unfold of
  rw [hmessages]

/-- The condition on a statement: what it writes over has not changed since its call looked. -/
def InTime (i : TxId) (o : ChatOp) (_ : ChatInput) (s : ChatDesk) : Prop :=
  match o with
  | .update id (.message current _ sender _ _) =>
    ∀ c, s.conversations.seen i id = some c → OpenAsRead current sender c
  | .update id (.read who) =>
    ∀ c, s.conversations.seen i id = some c → AllRead (s.messages.seen i) id c who
  | .update id (.transition _ target) =>
    ∀ c, s.conversations.seen i id = some c → target = .pending → c.status.ended = false
  | _ => True

/-- Where the transaction has not written a conversation and commits nothing, there is nothing
new to be said. -/
theorem Consistent.quiet (h : Consistent s) (hrely : ∀ j, j ≠ i → Rely j s t)
    (hclean : Clean i s) (hconv : t.conversations = s.conversations)
    (hmessages : ∀ m, t.messages.committed m = s.messages.committed m) : Consistent t := by
  refine h.step hrely (h.committed.congr (fun k => by rw [hconv]) hmessages) fun id c hc => ?_
  rw [hconv, hclean.conversations] at hc
  cases hc

section programs

variable {α β : Type} {Q : Except Fault β → ChatDesk → Prop} {s : ChatDesk}

/-- One statement and the rest of the transaction; a fault ends it. -/
theorem obeys_ask {o : ChatOp} {f : o.Res → ChatCall β}
    (hpre : chatPre i o s) (hfault : ∀ e t, Q (.error e) t)
    (hok : ∀ s₁ x a s₂, Rely i s s₁ → s₁.Inv → o.perform i x s₁ = some (.ok a, s₂) →
      chatContract.Obeys i Q (f a) s₂) :
    chatContract.Obeys i Q (ChatCall.ask o >>= f) s := by
  refine Contract.Obeys.perform hpre (fun s₁ x a s₂ h₁ hs h => ?_)
    fun _ _ e _ _ _ _ t _ => hfault e t
  rcases exec_cases h with ⟨e, he, -⟩ | hperform
  · cases he
  · exact hok s₁ x a s₂ h₁ hs hperform

/-- A part of a transaction that ends with `P`, or with a fault. -/
abbrev Reaches (P : ChatDesk → Prop) : Except Fault α → ChatDesk → Prop :=
  Contract.Ends (fun _ => P) fun _ => True

theorem obeys_tx {body : ChatCall α}
    (h : chatContract.Obeys i (Reaches fun s => Contained s i) body s) :
    chatContract.Obeys i (fun _ _ => True) (ChatCall.tx body) s := by
  unfold ChatCall.tx
  refine Contract.Obeys.bind (Contract.Obeys.catching (Contract.Obeys.mono (fun r u hr => ?_) h))
  cases r with
  | ok a => exact obeys_ask hr (fun _ _ => trivial) fun _ _ _ _ _ _ _ => fun _ _ => trivial
  | error e => exact obeys_ask trivial (fun _ _ => trivial) fun _ _ _ _ _ _ _ => fun _ _ => trivial

/-- After an update the transaction has the conversation. -/
theorem obeys_update {w : ConversationWrite} {f : Conversation → ChatCall α}
    (hfree : s.conversations.own i id = none) (hprep : Prepared s i id w)
    (hok : ∀ a t, Contained t i → chatContract.Obeys i (Reaches fun s => Contained s i) (f a) t) :
    chatContract.Obeys i (Reaches fun s => Contained s i) (ChatCall.ask (.update id w) >>= f)
      s := by
  refine obeys_ask ⟨hfree, hprep⟩ (fun _ _ => trivial) fun s₁ x a s₂ h₁ _ h => hok a s₂ ?_
  rcases update_cases h with ⟨⟨e, he⟩, -⟩ | ⟨c, conversations, -, hw, rfl⟩
  · cases he
  · have hown : (conversations.own i id).isSome := by
      rw [Table.own_write_self hw]
      rfl
    exact ⟨id, hown, (hprep.stable h₁).within⟩

theorem obeys_pure {a : α} (h : Contained s i) :
    chatContract.Obeys i (Reaches fun s => Contained s i) (Pure.pure a : ChatCall α) s :=
  fun _ ht => h.stable ht

/-- A message of one's own is what the update of its conversation is prepared by. -/
theorem prepared_insert {row : Message} {current : ConversationStatus} {assignTo : Option UserId}
    (hc : Clean i s) (hread : row.readAt = none) :
    Prepared { s with messages := s.messages.insert i row } i row.conversationId
      (.message current s.messages.next row.sender row.createdAt assignTo) :=
  ⟨row, Table.own_insert_self, Table.committed_next, rfl, rfl, hread, fun m hm =>
    (Table.own_insert_of_ne hm).trans (hc.messages m)⟩

theorem obeys_post {conv : ConversationId × Conversation} {sender : MessageSender} {body : String}
    {opts : ChatCall.PostOptions} (hc : Clean i s) :
    chatContract.Obeys i (fun _ _ => True) (ChatCall.post conv sender body opts) s := by
  refine Contract.Obeys.tryCatch (Contract.Obeys.mono (fun r t _ => ?_) (obeys_tx ?_))
  · cases r with
    | ok a => trivial
    | error e =>
        show chatContract.Obeys i _ (ite _ _ _) t
        split
        · exact fun _ _ => trivial
        · exact fun _ _ => trivial
  · refine obeys_ask hc (fun _ _ => trivial) fun s₁ x a s₂ h₁ _ h => ?_
    rcases createMessage_cases (Option.some.inj h) with ⟨⟨e, he⟩, -⟩ | ⟨ha, rfl⟩
    · cases he
    · obtain rfl := Except.ok.inj ha
      have hc₁ := hc.stable h₁
      exact obeys_update (hc₁.conversations conv.1) (prepared_insert hc₁ rfl) fun _ _ hcont =>
        obeys_pure hcont

/-- What is marked is what the reader has not read. -/
theorem prepared_mark {who : ReadBy} {now : Instant} (hc : Clean i s)
    (h : s.markMessages i id who now = some t) : Prepared t i id (.read who) := by
  obtain ⟨messages, hup, rfl⟩ := Option.map_eq_some_iff.mp h
  intro m v hv
  have hself := (Table.own_update_self (k := m) hup).symm.trans hv
  rw [Table.seen_of_own_none (hc.messages m), hc.messages m] at hself
  split at hself
  next r' hr' =>
    obtain ⟨r, hr, hg⟩ := Option.bind_eq_some_iff.mp hr'
    split at hg
    next hmark =>
      obtain rfl := Option.some.inj hg
      obtain rfl := Option.some.inj hself
      exact ⟨r, now, rfl, (Table.committed_update hup).trans hr, hmark.1, hmark.2.1⟩
    next => cases hg
  next => cases hself

theorem obeys_markAll {who : ReadBy} (hc : Clean i s) :
    chatContract.Obeys i (fun _ _ => True) (ChatCall.markAll id who) s := by
  refine obeys_tx (obeys_ask hc (fun _ _ => trivial) fun s₁ x a s₂ h₁ _ h => ?_)
  obtain ⟨u, hu, heq⟩ := Option.map_eq_some_iff.mp h
  obtain ⟨-, rfl⟩ := Prod.mk.inj heq
  have hc₁ := hc.stable h₁
  refine obeys_update ?_ (prepared_mark hc₁ hu) fun _ _ hcont => obeys_pure hcont
  obtain ⟨messages, -, rfl⟩ := Option.map_eq_some_iff.mp hu
  exact hc₁.conversations id

/-! Before the transaction a call only looks, or opens a conversation. -/

def Looks : ChatOp → Prop
  | .customer _ | .find _ | .findOpen _ | .findGuest _ | .create _ => True
  | _ => False

theorem exec_clean {o : ChatOp} {x : ChatInput} {r : Except Fault o.Res} (ho : Looks o)
    (h : o.exec i x s = some (r, t)) (hc : Clean i s) : Clean i t := by
  rcases exec_cases h with ⟨e, -, rfl⟩ | hperform
  · cases o with
    | customer | find | findOpen | findGuest | create => exact hc
    | _ => exact ho.elim
  · cases o with
    | create row =>
        rcases create_cases hperform with rfl | rfl
        · exact hc
        · exact ⟨hc.conversations, hc.messages⟩
    | customer | find | findOpen | findGuest =>
        obtain ⟨-, rfl⟩ := Prod.mk.inj (Option.some.inj hperform)
        exact hc
    | _ => exact ho.elim

/-- A part of a call after which its transaction has still written nothing. -/
abbrev StaysClean (i : TxId) : Except Fault α → ChatDesk → Prop := fun _ t => Clean i t

theorem obeys_look {o : ChatOp} (ho : Looks o) (hpre : chatPre i o s) (hc : Clean i s) :
    chatContract.Obeys i (StaysClean i) (ChatCall.ask o) s := by
  refine ⟨hpre, fun s₁ x r s₂ h₁ _ h => ?_⟩
  have hc₂ : Clean i s₂ := exec_clean ho h (hc.stable h₁)
  cases r with
  | ok a => exact fun t ht => hc₂.stable ht
  | error e => exact fun t ht => hc₂.stable ht

theorem obeys_then {p : ChatCall α} {f : α → ChatCall β}
    (hp : chatContract.Obeys i (StaysClean i) p s)
    (hf : ∀ a t, Clean i t → chatContract.Obeys i Q (f a) t)
    (hfault : ∀ e t, Clean i t → Q (.error e) t) : chatContract.Obeys i Q (p >>= f) s :=
  Contract.Obeys.bind (Contract.Obeys.mono (fun r t ht => by
    cases r with
    | ok a => exact hf a t ht
    | error e => exact hfault e t ht) hp)

theorem obeys_mayWrite {customerId : Option CustomerId} (hc : Clean i s) :
    chatContract.Obeys i (StaysClean i) (ChatCall.mayWrite customerId) s := by
  cases customerId with
  | none => exact fun t ht => hc.stable ht
  | some k =>
      refine obeys_then (obeys_look trivial trivial hc) (fun blocked t ht => ?_) fun _ _ ht => ht
      split
      · exact fun u hu => ht.stable hu
      · exact fun u hu => ht.stable hu

theorem obeys_create {row : Conversation} (hrow : New row) (hc : Clean i s) :
    chatContract.Obeys i (StaysClean i) (ChatCall.ask (.create row)) s :=
  obeys_look trivial hrow hc

theorem obeys_openOf {k : CustomerId} (hc : Clean i s) :
    chatContract.Obeys i (StaysClean i) (ChatCall.openOf k) s := by
  refine obeys_then (obeys_look trivial trivial hc) (fun found t ht => ?_) fun _ _ ht => ht
  cases found with
  | some conv => exact fun u hu => ht.stable hu
  | none =>
      refine Contract.Obeys.tryCatch (Contract.Obeys.mono (fun r u hu => ?_)
        (obeys_create ⟨rfl, rfl, rfl, rfl, rfl⟩ ht))
      cases r with
      | ok a => exact hu
      | error e =>
          -- another call has opened one meanwhile
          show chatContract.Obeys i _ (ite _ _ _) u
          split
          · exact fun v hv => hu.stable hv
          · refine obeys_then (obeys_look trivial trivial hu) (fun found v hv => ?_) fun _ _ hv => hv
            cases found with
            | some conv => exact fun _ hw => hv.stable hw
            | none => exact fun _ hw => hv.stable hw

theorem obeys_guestThread {hashGuestToken : String → String} {token : Option String}
    {newToken : String} (hc : Clean i s) :
    chatContract.Obeys i (StaysClean i) (ChatCall.guestThread hashGuestToken token newToken) s := by
  cases token with
  | none => exact obeys_create ⟨rfl, rfl, rfl, rfl, rfl⟩ hc
  | some token =>
      unfold ChatCall.guestThread
      dsimp only
      split
      · exact obeys_create ⟨rfl, rfl, rfl, rfl, rfl⟩ hc
      · refine obeys_then (obeys_look trivial trivial hc) (fun found t ht => ?_) fun _ _ ht => ht
        cases found with
        | none => exact obeys_create ⟨rfl, rfl, rfl, rfl, rfl⟩ ht
        | some conv => exact fun u hu => ht.stable hu

theorem obeys_mustAccess {hashGuestToken : String → String} {caller : ChatCaller}
    (hc : Clean i s) :
    chatContract.Obeys i (StaysClean i) (ChatCall.mustAccess hashGuestToken caller id) s := by
  refine obeys_then (obeys_look trivial trivial hc) (fun found t ht => ?_) fun _ _ ht => ht
  cases found with
  | none => exact fun u hu => ht.stable hu
  | some conv =>
      show chatContract.Obeys i _ (ite _ _ _) t
      split
      · exact fun u hu => ht.stable hu
      · exact fun u hu => ht.stable hu

theorem obeys_mustGet (hc : Clean i s) :
    chatContract.Obeys i (StaysClean i) (ChatCall.mustGet id) s := by
  refine obeys_then (obeys_look trivial trivial hc) (fun found t ht => ?_) fun _ _ ht => ht
  cases found with
  | none => exact fun u hu => ht.stable hu
  | some conv => exact fun u hu => ht.stable hu

theorem obeys_transition {action : InboxAction} (hc : Clean i s) :
    chatContract.Obeys i (fun _ _ => True) (ChatCall.transition id action) s := by
  refine obeys_then (obeys_mustGet hc) (fun conv t ht => ?_) fun _ _ _ => trivial
  cases nextStatus conv.2.status action with
  | none => exact fun _ _ => trivial
  | some target =>
      refine Contract.Obeys.bind (Contract.Obeys.mono (fun r u _ => ?_) (obeys_tx
        (obeys_update (ht.conversations id) ht.messages fun _ u hcont => ?_)))
      · cases r with
        | ok a => exact fun _ _ => trivial
        | error e => trivial
      · refine ⟨trivial, fun s₁ x r s₂ h₁ _ h => ?_⟩
        cases r with
        | error e => exact fun _ _ => trivial
        | ok a =>
            rcases exec_cases h with ⟨e, he, -⟩ | hperform
            · cases he
            · obtain ⟨-, rfl⟩ := Prod.mk.inj (Option.some.inj hperform)
              exact obeys_pure (hcont.stable h₁)

theorem obeys_done {p : ChatCall α} (h : chatContract.Obeys i (fun _ _ => True) p s) :
    chatContract.Obeys i (fun _ _ => True) (do let _ ← p) s :=
  Contract.Obeys.bind (Contract.Obeys.mono (fun r t _ => by
    cases r with
    | ok a => exact fun _ _ => trivial
    | error e => trivial) h)

theorem obeys_body {hashGuestToken : String → String} (request : ChatRequest)
    (hc : Clean i s) : chatContract.Obeys i (fun _ _ => True) (request.body hashGuestToken) s := by
  cases request with
  | start caller newToken message =>
      refine obeys_done (obeys_then (obeys_mayWrite hc) (fun _ t ht => ?_) fun _ _ _ => trivial)
      cases caller.customerId with
      | some k => exact obeys_then (obeys_openOf ht) (fun _ _ hu => obeys_post hu) fun _ _ _ => trivial
      | none =>
          exact obeys_then (obeys_guestThread ht) (fun _ _ hu => obeys_post hu) fun _ _ _ => trivial
  | send caller id body =>
      exact obeys_done (obeys_then (obeys_mustAccess hc) (fun _ _ ht =>
        obeys_then (obeys_mayWrite ht) (fun _ _ hu => obeys_post hu) fun _ _ _ => trivial)
        fun _ _ _ => trivial)
  | markRead caller id =>
      exact obeys_then (obeys_mustAccess hc) (fun _ _ ht => obeys_markAll ht) fun _ _ _ => trivial
  | reply user id body =>
      exact obeys_done (obeys_then (obeys_mustGet hc) (fun _ _ ht => obeys_post ht)
        fun _ _ _ => trivial)
  | markReadByStaff id =>
      exact obeys_then (obeys_mustGet hc) (fun _ _ ht => obeys_markAll ht) fun _ _ _ => trivial
  | transition id action => exact obeys_done (obeys_transition hc)

end programs

/-! ### Every interleaving -/

/-- No call is in progress, and every message is one of a conversation. -/
structure AtRest (s : ChatDesk) : Prop where
  idle : ∀ i, Clean i s
  references : s.Inv

variable {hashGuestToken : String → String} {w : ChatWorld}

section guestThread

instance (who : ReadBy) (id : ConversationId) (c : Conversation) :
    Decidable (AllRead (s.messages.seen i) id c who) :=
  match who with
  | .customer => decidable_of_iff (∀ m < s.messages.next, ∀ r ∈ s.messages.seen i m,
      r.conversationId = id → ReadBy.customer.reads r.sender = true → r.readAt.isSome)
      ⟨fun h m r hr => h m (bounded_seen m r hr) r hr, fun h m _ r hr => h m r hr⟩
  | .staff => decidable_of_iff (∀ m < s.messages.next, ∀ r ∈ s.messages.seen i m,
      r.conversationId = id → ReadBy.staff.reads r.sender = true → m ∈ c.sinceEnded →
        r.readAt.isSome)
      ⟨fun h m r hr => h m (bounded_seen m r hr) r hr, fun h m _ r hr => h m r hr⟩

instance (o : ChatOp) (x : ChatInput) (s : ChatDesk) : Decidable (InTime i o x s) := by
  cases o with
  | update id w =>
      cases w with
      | message current m sender createdAt assignTo =>
          exact inferInstanceAs (Decidable (∀ c ∈ s.conversations.seen i id,
            current.ended = c.status.ended ∨ (sender = .customer ∧ current.ended = true)))
      | read who =>
          exact inferInstanceAs (Decidable (∀ c ∈ s.conversations.seen i id,
            AllRead (s.messages.seen i) id c who))
      | transition current target =>
          exact inferInstanceAs (Decidable (∀ c ∈ s.conversations.seen i id,
            target = .pending → c.status.ended = false))
  | _ => exact isTrue trivial

end guestThread

end ChatDesk

end BookHouse
