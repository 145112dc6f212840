/-
Support chat: `support/application/message-writer.service.ts`, `inbox.service.ts` and
`chat.service.ts` with the rules of `support/domain/conversation-rules.ts`, statement by
statement.

A message and what it does to its conversation are one transaction; what a call found out
about the conversation before that transaction may have changed by the time it writes.  The
names that go with a message, the events after the commit and the lists are left out.
-/
import BookHouse.Auth.Accounts
import BookHouse.Lib.Table
import BookHouse.Orders.CouponLookup
import BookHouse.Platform.CounterDesk
import BookHouse.Runtime
import Mathlib.Data.Finset.Card
import Mathlib.Data.Finset.Range
import Mathlib.Data.List.MinMax

namespace BookHouse

abbrev ConversationId := ℕ
abbrev MessageId := ℕ

inductive ConversationStatus
  /-- `OPEN` -/
  | opened
  | pending | resolved | closed
deriving DecidableEq, Repr

inductive MessageSender
  | customer | staff | system
deriving DecidableEq, Repr

structure Message where
  conversationId : ConversationId
  sender : MessageSender
  senderUserId : Option UserId := none
  body : String
  readAt : Option Instant := none
  createdAt : Instant := 0
deriving DecidableEq, Repr

/-- What has been done to a conversation. -/
inductive ChatEvent
  | posted (m : MessageId)
  /-- resolved or closed -/
  | ended
deriving DecidableEq, Repr

structure Conversation where
  customerId : Option CustomerId := none
  guestToken : Option String := none
  status : ConversationStatus := .opened
  assigneeId : Option UserId := none
  lastMessageAt : Instant := 0
  lastMessageFrom : Option MessageSender := none
  unreadByStaff : ℕ := 0
  unreadByCustomer : ℕ := 0
  closedAt : Option Instant := none
  /-- not a column: what the writes of the row have been, the last one first -/
  history : List ChatEvent := []
deriving DecidableEq, Repr

/-! ### The rules -/

/-- `RESOLVED` or `CLOSED` -/
def ConversationStatus.ended : ConversationStatus → Bool
  | resolved | closed => true
  | opened | pending => false

/-- `StaffAction` -/
inductive InboxAction
  | resolve | close | reopen | pending
deriving DecidableEq, Repr

structure InboxTransition where
  fromStatuses : List ConversationStatus
  toStatus : ConversationStatus

def transitions : InboxAction → InboxTransition
  | .pending => ⟨[.opened], .pending⟩
  | .resolve => ⟨[.opened, .pending], .resolved⟩
  | .close => ⟨[.opened, .pending, .resolved], .closed⟩
  | .reopen => ⟨[.resolved, .closed], .opened⟩

def nextStatus (current : ConversationStatus) (action : InboxAction) : Option ConversationStatus :=
  let t := transitions action
  if current ∈ t.fromStatuses then some t.toStatus else none

structure MessageEffect where
  status : ConversationStatus
  staffUnread : ℕ
  customerUnread : ℕ
  reopened : Bool

/-- Counter and status effects of a new message: a customer's reopens a resolved or closed
thread, one from the staff makes an open thread wait for the customer. -/
def afterMessage (current : ConversationStatus) : MessageSender → MessageEffect
  | .customer =>
    { status := if current = .resolved ∨ current = .closed ∨ current = .pending then .opened
                else current
      staffUnread := 1
      customerUnread := 0
      reopened := current = .resolved ∨ current = .closed }
  | _ =>
    { status := if current = .opened then .pending else current
      staffUnread := 0
      customerUnread := 1
      reopened := false }

structure ChatCaller where
  customerId : Option CustomerId := none
  guestToken : Option String := none
deriving DecidableEq, Repr

/-- The stored token is a hash that the service has made. -/
def tokenMatches (hashGuestToken : String → String) : Option String → Option String → Bool
  | some token, some storedHash =>
    token ≠ "" && storedHash ≠ "" && hashGuestToken token = storedHash
  | _, _ => false

/-- A registered customer owns their conversations; a guest proves ownership with the token. -/
def canAccess (hashGuestToken : String → String) (conv : Conversation) (caller : ChatCaller) :
    Bool :=
  match conv.customerId with
  | some customerId => caller.customerId = some customerId
  | none => tokenMatches hashGuestToken caller.guestToken conv.guestToken

/-! ### The tables -/

/-- Who has read a conversation. -/
inductive ReadBy
  | staff | customer
deriving DecidableEq, Repr

/-- The messages that are there for them to read. -/
def ReadBy.reads : ReadBy → MessageSender → Bool
  | staff, sender => sender = .customer
  | customer, sender => sender ≠ .customer

/-- An update of a conversation, with the status that its call has read before. -/
inductive ConversationWrite
  /-- a message has been posted -/
  | message (current : ConversationStatus) (m : MessageId) (sender : MessageSender)
    (createdAt : Instant) (assignTo : Option UserId)
  | read (who : ReadBy)
  | transition (current next : ConversationStatus)
deriving DecidableEq, Repr

namespace Conversation

/-- The messages posted since the conversation was last resolved or closed, the last one
first. -/
def sinceEnded (c : Conversation) : List MessageId :=
  (c.history.takeWhile (· ≠ .ended)).filterMap fun
    | .posted m => some m
    | .ended => none

def write (now : Instant) (c : Conversation) : ConversationWrite → Conversation
  | .message current m sender createdAt assignTo =>
    let effect := afterMessage current sender
    { c with
      lastMessageAt := createdAt
      lastMessageFrom := some sender
      status := effect.status
      closedAt := if effect.reopened then none else c.closedAt
      unreadByStaff := c.unreadByStaff + effect.staffUnread
      unreadByCustomer := c.unreadByCustomer + effect.customerUnread
      assigneeId := assignTo <|> c.assigneeId
      history := .posted m :: c.history }
  | .read .staff => { c with unreadByStaff := 0 }
  | .read .customer => { c with unreadByCustomer := 0 }
  | .transition _ next =>
    { c with
      status := next
      closedAt := if next.ended then some now else if next = .opened then none else c.closedAt
      unreadByStaff := if next.ended then 0 else c.unreadByStaff
      history := if next.ended then .ended :: c.history else c.history }

/-- The partial unique index: one `OPEN` or `PENDING` conversation for each customer. -/
def clashes (c c' : Conversation) : Bool :=
  c.customerId.isSome && c.customerId = c'.customerId && !c.status.ended && !c'.status.ended

end Conversation

structure ChatDesk where
  conversations : Table TxId Conversation
  messages : Table TxId Message

inductive ChatOp
  /-- `customer.findUniqueOrThrow`: whether the customer is blocked -/
  | customer (id : CustomerId)
  | find (id : ConversationId)
  /-- the conversation of a customer that is not resolved or closed -/
  | findOpen (id : CustomerId)
  /-- the guest's last conversation with this token -/
  | findGuest (guestToken : String)
  /-- `conversation.create`, on its own -/
  | create (row : Conversation)
  | createMessage (row : Message)
  /-- the messages that nobody has read yet are read now -/
  | markMessages (id : ConversationId) (who : ReadBy)
  | update (id : ConversationId) (w : ConversationWrite)
  | audit
  | commit
  | rollback

@[reducible] def ChatOp.Res : ChatOp → Type
  | customer _ => Bool
  | find _ => Option Conversation
  | findOpen _ | findGuest _ => Option (ConversationId × Conversation)
  | create _ => ConversationId × Conversation
  | createMessage _ => MessageId × Message
  | update .. => Conversation
  | markMessages .. | audit | commit | rollback => Unit

/-- What the outside adds to a statement. -/
structure ChatInput where
  fault : Option Fault := none
  now : Instant := 0
  blocked : Bool := false
deriving DecidableEq, Repr

namespace ChatDesk

def rowsOf (s : ChatDesk) (i : TxId) : List (ConversationId × Conversation) :=
  (List.range s.conversations.next).filterMap fun k =>
    (s.conversations.seen i k).map fun c => (k, c)

def notFoundRow : Fault := .database "P2025" "Record not found"

/-- Another transaction has such a row in hand: the unique index makes a write wait for it. -/
def contested (s : ChatDesk) (i : TxId) (c : Conversation) : Bool :=
  (List.range s.conversations.next).any fun k =>
    !s.conversations.rows.free i k &&
      ((s.conversations.committed k).any c.clashes ||
        ((s.conversations.rows.pending k).bind (·.2)).any c.clashes)

def otherOpen : Fault := (Failure.unique "conversations_one_open_per_customer").fault

def create (s : ChatDesk) (i : TxId) (row : Conversation) :
    Option (Except Fault (ConversationId × Conversation) × ChatDesk) :=
  if s.contested i row then none
  else if (s.rowsOf i).any fun r => row.clashes r.2 then some (.error otherOpen, s)
  else some (.ok (s.conversations.next, row),
    { s with conversations := s.conversations.insertNow row })

/-- The conversation has to be there. -/
def createMessage (s : ChatDesk) (i : TxId) (row : Message) :
    Except Fault (MessageId × Message) × ChatDesk :=
  if (s.conversations.seen i row.conversationId).isSome then
    (.ok (s.messages.next, row), { s with messages := s.messages.insert i row })
  else (.error (.database "P2003" "Foreign key constraint violated"), s)

def markMessages (s : ChatDesk) (i : TxId) (id : ConversationId) (who : ReadBy) (now : Instant) :
    Option ChatDesk :=
  (s.messages.update i fun _ m =>
    if m.conversationId = id ∧ who.reads m.sender ∧ m.readAt = none then
      some { m with readAt := some now }
    else none).map fun messages => { s with messages }

def update (s : ChatDesk) (i : TxId) (id : ConversationId) (w : ConversationWrite)
    (now : Instant) : Option (Except Fault Conversation × ChatDesk) :=
  match s.conversations.seen i id with
  | none => some (.error notFoundRow, s)
  | some c =>
    let row := c.write now w
    if s.contested i row then none
    else if (s.rowsOf i).any fun r => r.1 ≠ id && row.clashes r.2 then some (.error otherOpen, s)
    else (s.conversations.write i id (some row)).map fun conversations =>
      (.ok row, { s with conversations })

def commit (s : ChatDesk) (i : TxId) : ChatDesk :=
  { conversations := s.conversations.commit i, messages := s.messages.commit i }

def rollback (s : ChatDesk) (i : TxId) : ChatDesk :=
  { conversations := s.conversations.rollback i, messages := s.messages.rollback i }

end ChatDesk

namespace ChatOp

-- Mathlib also orders the integers as a conditionally complete order, which does not compute.
local instance : Preorder Instant := Int.instLinearOrder.toPreorder

/-- A statement, or `none` while it waits for another transaction. -/
def perform (i : TxId) (x : ChatInput) (s : ChatDesk) :
    (o : ChatOp) → Option (Except Fault o.Res × ChatDesk)
  | customer _ => some (.ok x.blocked, s)
  | find id => some (.ok (s.conversations.seen i id), s)
  | findOpen id =>
    some (.ok ((s.rowsOf i).find? fun r => r.2.customerId = some id && !r.2.status.ended), s)
  | findGuest guestToken =>
    some (.ok (((s.rowsOf i).filter fun r =>
      r.2.guestToken = some guestToken && r.2.customerId.isNone).argmax (·.2.lastMessageAt)), s)
  | create row => s.create i { row with lastMessageAt := x.now }
  | createMessage row => some (s.createMessage i { row with createdAt := x.now })
  | markMessages id who => (s.markMessages i id who x.now).map fun s => (.ok (), s)
  | update id w => s.update i id w x.now
  | audit => some (.ok (), s)
  | commit => some (.ok (), s.commit i)
  | rollback => some (.ok (), s.rollback i)

/-- A commit that fails has rolled back; the end of a failed transaction cannot fail. -/
def dropped (i : TxId) (s : ChatDesk) : ChatOp → ChatDesk
  | commit => s.rollback i
  | _ => s

def exec (i : TxId) (o : ChatOp) (x : ChatInput) (s : ChatDesk) :
    Option (Except Fault o.Res × ChatDesk) :=
  match o, x.fault with
  | rollback, _ => some (.ok (), s.rollback i)
  | o, some fault => some (.error fault, o.dropped i s)
  | o, none => o.perform i x s

end ChatOp

/-- A service call whose statements others can come between; its thread is its transaction. -/
abbrev ChatCall := Prog ChatOp ChatOp.Res Fault

namespace ChatCall

variable {α : Type}

def ask (o : ChatOp) : ChatCall o.Res := Prog.perform o

/-- `prisma.tx`: what throws is rolled back. -/
def tx (body : ChatCall α) : ChatCall α := do
  match ← body.catching with
  | .ok a => do
      ask .commit
      return a
  | .error fault => do
      ask .rollback
      throw fault

/-! ### `MessageWriter` -/

structure PostOptions where
  senderUserId : Option UserId := none
  assignTo : Option UserId := none

/-- The one place a message is written: message row, counters and status in one transaction. -/
def post (conv : ConversationId × Conversation) (sender : MessageSender) (body : String)
    (opts : PostOptions := {}) : ChatCall (Message × Conversation) :=
  let text := trim body
  tryCatch
    (tx do
      let (id, m) ← ask (.createMessage
        { conversationId := conv.1, sender, senderUserId := opts.senderUserId, body := text })
      let updated ← ask (.update conv.1
        (.message conv.2.status id sender m.createdAt opts.assignTo))
      return (m, updated))
    fun err =>
      if err.isCode "P2002" then
        throw (.domain (.conflict "chat.other_open"
          "আপনার আরেকটি চলমান কথোপকথন আছে — সেখানে লিখুন"))
      else throw err

/-! ### `ChatService` -/

def notFound (id : ConversationId) : Fault := .domain (.notFound "Conversation" (toString id))

def blockedCustomer : Fault :=
  .domain (.rule "chat.blocked" "চ্যাট এই মুহূর্তে বন্ধ আছে — হেল্পলাইনে কল করুন")

/-- A customer who is blocked may not write. -/
def mayWrite : Option CustomerId → ChatCall Unit
  | some id => do
      if ← ask (.customer id) then throw blockedCustomer
  | none => pure ()

/-- The customer's open conversation, or a new one. -/
def openOf (id : CustomerId) : ChatCall (ConversationId × Conversation) := do
  match ← ask (.findOpen id) with
  | some conv => return conv
  | none =>
    tryCatch (ask (.create { customerId := some id })) fun err => do
      if !err.isCode "P2002" then throw err
      match ← ask (.findOpen id) with
      | some conv => return conv
      | none => throw ChatDesk.notFoundRow

/-- A guest who still holds a valid token continues their thread; another one gets a new
token. -/
def guestThread (hashGuestToken : String → String) (token : Option String) (newToken : String) :
    ChatCall (ConversationId × Conversation) := do
  let conv ← match token with
    | some token => if token = "" then pure none else ask (.findGuest (hashGuestToken token))
    | none => pure none
  match conv with
  | some conv => return conv
  | none => ask (.create { guestToken := some (hashGuestToken newToken) })

def start (hashGuestToken : String → String) (caller : ChatCaller) (newToken message : String) :
    ChatCall (Message × Conversation) := do
  mayWrite caller.customerId
  let conv ← match caller.customerId with
    | some id => openOf id
    | none => guestThread hashGuestToken caller.guestToken newToken
  post conv .customer message

def mustAccess (hashGuestToken : String → String) (caller : ChatCaller) (id : ConversationId) :
    ChatCall (ConversationId × Conversation) := do
  match ← ask (.find id) with
  | none => throw (notFound id)
  | some conv =>
    if canAccess hashGuestToken conv caller then return (id, conv)
    else throw (.forbidden "chat.forbidden" "এই কথোপকথন দেখার অনুমতি নেই")

def send (hashGuestToken : String → String) (caller : ChatCaller) (id : ConversationId)
    (body : String) : ChatCall (Message × Conversation) := do
  let conv ← mustAccess hashGuestToken caller id
  mayWrite caller.customerId
  post conv .customer body

/-- The body of both `markRead`s. -/
def markAll (id : ConversationId) (who : ReadBy) : ChatCall Unit :=
  tx do
    ask (.markMessages id who)
    let _ ← ask (.update id (.read who))

def markRead (hashGuestToken : String → String) (caller : ChatCaller) (id : ConversationId) :
    ChatCall Unit := do
  let _ ← mustAccess hashGuestToken caller id
  markAll id .customer

/-! ### `InboxService` -/

def mustGet (id : ConversationId) : ChatCall (ConversationId × Conversation) := do
  match ← ask (.find id) with
  | none => throw (notFound id)
  | some conv => return (id, conv)

def reply (user : UserId) (id : ConversationId) (body : String) :
    ChatCall (Message × Conversation) := do
  let conv ← mustGet id
  post conv .staff body
    { senderUserId := some user, assignTo := if conv.2.assigneeId.isSome then none else some user }

def markReadByStaff (id : ConversationId) : ChatCall Unit := do
  let _ ← mustGet id
  markAll id .staff

def transition (id : ConversationId) (action : InboxAction) : ChatCall ConversationStatus := do
  let conv ← mustGet id
  match nextStatus conv.2.status action with
  | none => throw (.domain (.rule "chat.bad_transition" "এই অবস্থায় কাজটি করা যাবে না"))
  | some next => do
    tx do
      let _ ← ask (.update id (.transition conv.2.status next))
      ask .audit
    return next

end ChatCall

inductive ChatRequest
  | start (caller : ChatCaller) (newToken message : String)
  | send (caller : ChatCaller) (id : ConversationId) (body : String)
  | markRead (caller : ChatCaller) (id : ConversationId)
  | reply (user : UserId) (id : ConversationId) (body : String)
  | markReadByStaff (id : ConversationId)
  | transition (id : ConversationId) (action : InboxAction)
deriving DecidableEq, Repr

def ChatRequest.body (hashGuestToken : String → String) : ChatRequest → ChatCall Unit
  | start caller newToken message => do
      let _ ← ChatCall.start hashGuestToken caller newToken message
  | send caller id body => do
      let _ ← ChatCall.send hashGuestToken caller id body
  | markRead caller id => ChatCall.markRead hashGuestToken caller id
  | reply user id body => do
      let _ ← ChatCall.reply user id body
  | markReadByStaff id => ChatCall.markReadByStaff id
  | transition id action => do
      let _ ← ChatCall.transition id action

end BookHouse
