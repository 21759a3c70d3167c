/-
Module: RentMate.Proofs.ConnectionIsolation
Purpose: Many connections over one table of holders: under which condition on the holder that
  `recvAll` finds, the frames of a connection are made of its own bytes, and how a close that
  leaves the holder as it is mixes two connections.
Trusted boundary: none
Main exports: SocketEvent, Transport, socketStep, FindsOwnHolder, frames_of_own_bytes
-/
import RentMate.Proofs.StreamIndependence
import Mathlib.Logic.Function.Basic

namespace RentMate.ConnectionIsolation

open RentMate.Machine
open RentMate.PckData
open RentMate.Reassembly
open RentMate.StreamIndependence (RecvPromises recvGives_iff)

/-! ### The sockets of one process -/

/-- What happens on the sockets of one process. -/
inductive SocketEvent where
  /-- `accept1` on the server, `connect` on the node. -/
  | opened (socket : Int)
  /-- One `recv()` in a call of `recvAll`. -/
  | received (socket : Int) (result : RecvResult)
  /-- `close1` after `EPOLLHUP` or `EPOLLERR` on the server, `close` on the node. Both leave the
  holders as they are. -/
  | closed (socket : Int)
deriving Repr, DecidableEq

/-- What has been received on a connection, the index of the holder that `recvAll` last used
for it, and the frames that the callback was called with. -/
structure Connection where
  received : Bytes
  usedLast : Option Nat
  frames : List Bytes
deriving Repr, DecidableEq, Inhabited

/-- The holders of one process with its connections. A connection is known by its number, since
a socket number comes back. -/
structure Transport where
  recvHolders : List RecvHolder
  processBuf : Block maxMsgLen
  current : Int → Option Nat
  opened : Nat
  connections : Nat → Connection

/-- A process that has opened no connection yet. -/
def Transport.start (processBuf : Block maxMsgLen) : Transport :=
  { recvHolders := []
    processBuf := processBuf
    current := fun _ => none
    opened := 0
    connections := fun _ => { received := [], usedLast := none, frames := [] } }

/-- The bytes of one `recv()`. -/
def resultBytes : RecvResult → Bytes
  | .bytes chunk => chunk
  | .closed => []

section Stepping

variable (host : ByteOrder) (leaves : Block maxMsgLen → Block maxMsgLen)
  (malloced : Nat → Block recvQueueSize)

/-- One event. `malloced` is what `malloc` returns for the queue of the holder at an index. -/
def socketStep (transport : Transport) : SocketEvent → Checked Transport
  | .opened socket =>
      .ok
        { transport with
          current := Function.update transport.current socket (some transport.opened)
          opened := transport.opened + 1 }
  | .closed socket =>
      .ok { transport with current := Function.update transport.current socket none }
  | .received socket result =>
      match transport.current socket with
      | none => .ok transport
      | some number => do
          let connection := transport.connections number
          let outcome ← recvAll host (recordFrame leaves)
            (malloced transport.recvHolders.length) transport.recvHolders socket [result]
            transport.processBuf connection.frames
          let found := holderToUse (malloced transport.recvHolders.length)
            transport.recvHolders socket
          pure
            { transport with
              recvHolders := outcome.recvHolders
              processBuf := outcome.processBuf
              current :=
                if outcome.returnValue = 1 then
                  Function.update transport.current socket none
                else transport.current
              connections := Function.update transport.connections number
                { received := connection.received ++ resultBytes result
                  usedLast := some found.2
                  frames := outcome.state } }

end Stepping

/-! ### The holder that `recvAll` finds -/

section Finding

variable (malloced : Nat → Block recvQueueSize)

/-- The holder that `recvAll` finds for a socket. -/
def foundHolder (transport : Transport) (socket : Int) : Option RecvHolder :=
  let found := holderToUse (malloced transport.recvHolders.length) transport.recvHolders socket
  found.1[found.2]?

/-- The bytes of a connection behind its last whole message. -/
def unfinished (connection : Connection) : Bytes :=
  (messageFraming.split connection.received).2

/-- A connection in the middle of a message is found in the holder that has the beginning of
the message, and a connection between messages in a holder where no message is begun. -/
def FindsOwnHolder (transport : Transport) (socket : Int) (number : Nat) : Prop :=
  if unfinished (transport.connections number) = [] then
    ∀ holder ∈ foundHolder malloced transport socket, holder.firstMsgPtr = none
  else
    (transport.connections number).usedLast =
      some (holderToUse (malloced transport.recvHolders.length) transport.recvHolders socket).2

/-- What the operating system promises: a socket number in use is not given out again, and
`recv()` gives some bytes, and no more than it was asked for. -/
def Promised (transport : Transport) : SocketEvent → Prop
  | .opened socket => transport.current socket = none
  | .received socket (.bytes chunk) =>
      ∀ holder ∈ foundHolder malloced transport socket, RecvPromises holder chunk
  | _ => True

/-- The condition on an event: its connection finds its own holder, whose queue `recv()` is still
inside of, and the bytes of a `recv()` end on a boundary. -/
def Separated (transport : Transport) : SocketEvent → Prop
  | .received socket result =>
      ∀ number ∈ transport.current socket,
        FindsOwnHolder malloced transport socket number ∧
          ∀ holder ∈ foundHolder malloced transport socket,
            result = .closed ∨
              holder.sizeUsed ≤ recvQueueSize ∧
                LengthFieldInside holder (unfinished (transport.connections number))
                  (resultBytes result) ∧
                OnBoundary (unfinished (transport.connections number)) (resultBytes result)
  | _ => True

instance (transport : Transport) (socket : Int) (number : Nat) :
    Decidable (FindsOwnHolder malloced transport socket number) :=
  inferInstanceAs (Decidable (ite _ _ _))

instance (transport : Transport) :
    (event : SocketEvent) → Decidable (Promised malloced transport event)
  | .opened _ => inferInstanceAs (Decidable (_ = _))
  | .received _ (.bytes _) => inferInstanceAs (Decidable (∀ holder ∈ _, _))
  | .received _ .closed => inferInstanceAs (Decidable True)
  | .closed _ => inferInstanceAs (Decidable True)

instance (transport : Transport) :
    (event : SocketEvent) → Decidable (Separated malloced transport event)
  | .opened _ => inferInstanceAs (Decidable True)
  | .received _ _ => inferInstanceAs (Decidable (∀ number ∈ _, _ ∧ ∀ holder ∈ _, _ ∨ _ ∧ _ ∧ _))
  | .closed _ => inferInstanceAs (Decidable True)

/-- The search gives an index of the table, and at most appends a new holder to it. -/
theorem holderToUse_finds (malloced : Block recvQueueSize) (recvHolders : List RecvHolder)
    (socket : Int) :
    ∃ holder,
      (holderToUse malloced recvHolders socket).1[(holderToUse malloced recvHolders socket).2]? =
          some holder ∧
        ∀ (index : Nat) (other : RecvHolder),
          (recvHolders[index]? = some other →
            (holderToUse malloced recvHolders socket).1[index]? = some other) ∧
          ((holderToUse malloced recvHolders socket).1[index]? = some other →
            recvHolders[index]? = some other ∨ other = initRecvHolder malloced socket) := by
  unfold holderToUse
  cases own : findRecvHolder recvHolders socket with
  | some index =>
      have inside : index < recvHolders.length := by
        have mem := List.mem_of_find?_eq_some own
        simpa using mem
      exact ⟨recvHolders[index], List.getElem?_eq_getElem inside,
        fun _ _ => ⟨id, Or.inl⟩⟩
  | none =>
      cases free : findFreeRecvHolder recvHolders with
      | some index =>
          obtain ⟨inside, -⟩ := List.findIdx?_eq_some_iff_getElem.mp free
          exact ⟨recvHolders[index], List.getElem?_eq_getElem inside,
            fun _ _ => ⟨id, Or.inl⟩⟩
      | none =>
          refine ⟨initRecvHolder malloced socket, by simp, fun index other => ⟨?_, ?_⟩⟩
          · intro known
            obtain ⟨inside, -⟩ := List.getElem?_eq_some_iff.mp known
            simpa [List.getElem?_append_left inside] using known
          · intro known
            rcases Nat.lt_or_ge index recvHolders.length with inside | behind
            · left
              simpa [List.getElem?_append_left inside] using known
            · right
              simp only [List.getElem?_append_right behind] at known
              have mem := List.mem_of_getElem? known
              simpa using mem

end Finding

/-! ### Calls that read more than once -/

section Repeating

variable {σ : Type} {host : ByteOrder} {callback : ProcessingCallback σ}
  {malloced : Block recvQueueSize} {recvHolders : List RecvHolder} {socket : Int}

/-- What the searches see of a table is the socket of each holder. -/
theorem holderToUse_congr (socket : Int) {one other : List RecvHolder}
    (same : one.map RecvHolder.socket = other.map RecvHolder.socket) :
    findRecvHolder one socket = findRecvHolder other socket ∧
      findFreeRecvHolder one = findFreeRecvHolder other := by
  have lengths : one.length = other.length := by
    simpa using congrArg List.length same
  constructor
  · have matching : ∀ index : Nat,
        ((one[index]?).any fun holder => decide (holder.socket = socket)) =
          (other[index]?).any fun holder => decide (holder.socket = socket) := by
      intro index
      have sockets : (one[index]?).map RecvHolder.socket =
          (other[index]?).map RecvHolder.socket := by
        simpa using congrArg (fun list => list[index]?) same
      cases first : one[index]? <;> cases second : other[index]? <;>
        simp_all
    simp only [findRecvHolder, lengths, matching]
  · have free : ∀ table : List RecvHolder, findFreeRecvHolder table =
        (table.map RecvHolder.socket).findIdx? fun number => decide (number = -1) := by
      intro table
      simp [findFreeRecvHolder, List.findIdx?_map, Function.comp_def]
    rw [free, free, same]

/-- The holder that a call has found and read into is found again. -/
theorem holderToUse_again {holder changed : RecvHolder}
    (found : (holderToUse malloced recvHolders socket).1[
      (holderToUse malloced recvHolders socket).2]? = some holder)
    (same : changed.socket = holder.socket) :
    holderToUse malloced
        ((holderToUse malloced recvHolders socket).1.set
          (holderToUse malloced recvHolders socket).2 changed) socket =
      ((holderToUse malloced recvHolders socket).1.set
        (holderToUse malloced recvHolders socket).2 changed,
        (holderToUse malloced recvHolders socket).2) := by
  have sockets : ∀ (table : List RecvHolder) (index : Nat), table[index]? = some holder →
      (table.set index changed).map RecvHolder.socket = table.map RecvHolder.socket := by
    intro table index known
    obtain ⟨inside, rfl⟩ := List.getElem?_eq_some_iff.mp known
    refine List.ext_getElem? fun other => ?_
    rcases Nat.decEq other index with differ | rfl
    · simp [List.getElem?_set_ne (Ne.symm differ)]
    · simp [inside, same]
  unfold holderToUse at found ⊢
  cases own : findRecvHolder recvHolders socket with
  | some index =>
      simp only [own] at found ⊢
      obtain ⟨sameOwn, -⟩ := holderToUse_congr socket (sockets _ _ found)
      simp only [sameOwn, own]
  | none =>
      cases free : findFreeRecvHolder recvHolders with
      | some index =>
          simp only [own, free] at found ⊢
          obtain ⟨sameOwn, sameFree⟩ := holderToUse_congr socket (sockets _ _ found)
          simp only [sameOwn, sameFree, own, free]
      | none =>
          simp only [own, free] at found ⊢
          obtain ⟨sameOwn, -⟩ := holderToUse_congr socket (sockets _ _ found)
          -- The new holder has the number of the socket.
          have new : findRecvHolder (recvHolders ++ [initRecvHolder malloced socket]) socket =
              some recvHolders.length := by
            simp [findRecvHolder, List.range_succ, initRecvHolder]
          simp only [sameOwn, new]

/-- A call of `recvAll` reads once, and goes on as a call of its own unless the callback was
called: runs in which every call reads once are all runs. -/
theorem recvAll_cons {chunk : Bytes} (unread : List RecvResult) {processBuf : Block maxMsgLen}
    {state : σ} :
    recvAll host callback malloced recvHolders socket (.bytes chunk :: unread) processBuf state =
      (recvAll host callback malloced recvHolders socket [.bytes chunk] processBuf state >>=
        fun outcome =>
          if outcome.returnValue = 0 then .ok { outcome with unread := unread }
          else recvAll host callback malloced outcome.recvHolders socket unread
            outcome.processBuf outcome.state) := by
  obtain ⟨holder, found, -⟩ := holderToUse_finds malloced recvHolders socket
  simp only [recvAll, recvLoop, found]
  cases ran : recvChunk host callback holder chunk processBuf state with
  | error fault => rfl
  | ok handled =>
      simp only [ok_bind]
      split
      · rfl
      · have again := holderToUse_again found (StreamIndependence.recvChunk_socket ran)
        simp only [ok_bind, again]
        rfl

end Repeating

/-! ### The invariant -/

/-- The invariant of a process whose connections are kept apart. -/
structure Isolated (transport : Transport) : Prop where
  numbered : ∀ socket number, transport.current socket = some number →
    number < transport.opened
  distinct : ∀ socket other number, transport.current socket = some number →
    transport.current other = some number → socket = other
  unopened : ∀ number, transport.opened ≤ number →
    (transport.connections number).received = []
  idle : ∀ (index : Nat) (holder : RecvHolder), transport.recvHolders[index]? = some holder →
    holder.firstMsgPtr = none → Holding holder []
  delivered : ∀ number, (transport.connections number).frames =
    (messageFraming.split (transport.connections number).received).1
  begun : ∀ socket number, transport.current socket = some number →
    unfinished (transport.connections number) ≠ [] →
    ∃ index holder, (transport.connections number).usedLast = some index ∧
      transport.recvHolders[index]? = some holder ∧
      Holding holder (unfinished (transport.connections number))
  apart : ∀ socket other number another, transport.current socket = some number →
    transport.current other = some another → number ≠ another →
    unfinished (transport.connections number) ≠ [] →
    unfinished (transport.connections another) ≠ [] →
    (transport.connections number).usedLast ≠ (transport.connections another).usedLast

/-- A holder in which no message is begun holds nothing. -/
theorem holding_nil {holder : RecvHolder} {rest : Bytes} (holding : Holding holder rest)
    (pointer : holder.firstMsgPtr = none) : Holding holder [] := by
  cases holding with
  | idle _ size used => exact .idle pointer size used
  | message _ _ arrived _ => simp [arrived.pointer] at pointer

/-- A holder that has the beginning of a message points to it. -/
theorem holding_pointer {holder : RecvHolder} {rest : Bytes}
    (holding : Holding holder rest) (begun : rest ≠ []) : holder.firstMsgPtr ≠ none := by
  cases holding with
  | idle => exact absurd rfl begun
  | message _ _ arrived _ => simp [arrived.pointer]

/-- No connections are isolated from each other. -/
theorem isolated_start (processBuf : Block maxMsgLen) : Isolated (Transport.start processBuf) := by
  constructor <;> simp [Transport.start, unfinished]

section Preserving

variable {transport : Transport} {malloced : Nat → Block recvQueueSize} {socket : Int}
  {number : Nat}

/-- A new connection is isolated from the others. -/
theorem isolated_opened (isolated : Isolated transport)
    (unused : transport.current socket = none) :
    Isolated
      { transport with
        current := Function.update transport.current socket (some transport.opened)
        opened := transport.opened + 1 } := by
  -- A connection that is open afterwards is the new one, without bytes, or was open before.
  have earlier : ∀ other another,
      Function.update transport.current socket (some transport.opened) other = some another →
      (other = socket ∧ another = transport.opened) ∨
        (other ≠ socket ∧ transport.current other = some another) := by
    intro other another known
    by_cases same : other = socket
    · subst same
      simp only [Function.update_self, Option.some.injEq] at known
      exact Or.inl ⟨rfl, known.symm⟩
    · exact Or.inr ⟨same, by simpa [Function.update_of_ne same] using known⟩
  have empty : unfinished (transport.connections transport.opened) = [] := by
    simp [unfinished, isolated.unopened transport.opened (Nat.le_refl _)]
  constructor
  · intro other another known
    rcases earlier other another known with ⟨-, rfl⟩ | ⟨-, before⟩
    · exact Nat.lt_succ_self _
    · exact Nat.lt_succ_of_lt (isolated.numbered other another before)
  · intro one other another knownOne knownOther
    rcases earlier one another knownOne with ⟨rfl, rfl⟩ | ⟨-, beforeOne⟩
    · rcases earlier other _ knownOther with ⟨rfl, -⟩ | ⟨-, beforeOther⟩
      · rfl
      · exact absurd (isolated.numbered other _ beforeOther) (Nat.lt_irrefl _)
    · rcases earlier other another knownOther with ⟨-, rfl⟩ | ⟨-, beforeOther⟩
      · exact absurd (isolated.numbered one _ beforeOne) (Nat.lt_irrefl _)
      · exact isolated.distinct one other another beforeOne beforeOther
  · intro another later
    exact isolated.unopened another (Nat.le_of_succ_le later)
  · exact isolated.idle
  · exact isolated.delivered
  · intro other another known begun
    rcases earlier other another known with ⟨-, rfl⟩ | ⟨-, before⟩
    · exact absurd empty begun
    · exact isolated.begun other another before begun
  · intro one other another further knownOne knownOther differ begunOne begunOther
    rcases earlier one another knownOne with ⟨-, rfl⟩ | ⟨-, beforeOne⟩
    · exact absurd empty begunOne
    · rcases earlier other further knownOther with ⟨-, rfl⟩ | ⟨-, beforeOther⟩
      · exact absurd empty begunOther
      · exact isolated.apart one other another further beforeOne beforeOther differ begunOne
          begunOther

/-- A connection that is open after a socket has been closed was open before, on another socket. -/
theorem open_behind_close {current : Int → Option Nat} {other : Int} {another : Nat}
    (known : Function.update current socket none other = some another) :
    other ≠ socket ∧ current other = some another := by
  by_cases same : other = socket
  · subst same
    simp at known
  · exact ⟨same, by simpa [Function.update_of_ne same] using known⟩

/-- Closing a socket leaves the connections that stay open as they were. -/
theorem isolated_closed (isolated : Isolated transport) :
    Isolated
      { transport with current := Function.update transport.current socket none } := by
  have earlier : ∀ other another,
      Function.update transport.current socket none other = some another →
      transport.current other = some another :=
    fun _ _ known => (open_behind_close known).2
  constructor
  · exact fun other another known => isolated.numbered other another (earlier _ _ known)
  · exact fun one other another knownOne knownOther =>
      isolated.distinct one other another (earlier _ _ knownOne) (earlier _ _ knownOther)
  · exact isolated.unopened
  · exact isolated.idle
  · exact isolated.delivered
  · exact fun other another known => isolated.begun other another (earlier _ _ known)
  · exact fun one other another further knownOne knownOther =>
      isolated.apart one other another further (earlier _ _ knownOne) (earlier _ _ knownOther)

/-- The holder that a connection finds holds its unfinished message, and no other open
connection's. -/
theorem found_holding (isolated : Isolated transport)
    (opened : transport.current socket = some number)
    (own : FindsOwnHolder malloced transport socket number) :
    ∃ holder,
      foundHolder malloced transport socket = some holder ∧
        Holding holder (unfinished (transport.connections number)) ∧
        ∀ other another, transport.current other = some another → another ≠ number →
          unfinished (transport.connections another) ≠ [] →
          (transport.connections another).usedLast ≠
            some (holderToUse (malloced transport.recvHolders.length) transport.recvHolders
              socket).2 := by
  obtain ⟨holder, found, table⟩ :=
    holderToUse_finds (malloced transport.recvHolders.length) transport.recvHolders socket
  refine ⟨holder, found, ?_⟩
  unfold FindsOwnHolder at own
  by_cases between : unfinished (transport.connections number) = []
  · rw [if_pos between] at own
    have pointer := own holder found
    rw [between]
    constructor
    · rcases (table _ holder).2 found with known | rfl
      · exact isolated.idle _ holder known pointer
      · exact holding_init _ _
    · intro other another openedOther differ begun used
      obtain ⟨index, others, last, known, holding⟩ :=
        isolated.begun other another openedOther begun
      obtain rfl := Option.some.inj (used.symm.trans last)
      have same := found.symm.trans ((table _ others).1 known)
      obtain rfl := Option.some.inj same
      exact holding_pointer holding begun pointer
  · rw [if_neg between] at own
    obtain ⟨index, holder', last, known, holding⟩ := isolated.begun socket number opened between
    obtain rfl := Option.some.inj (own.symm.trans last)
    have same := found.symm.trans ((table _ holder').1 known)
    obtain rfl := Option.some.inj same
    refine ⟨holding, fun other another openedOther differ begun used => ?_⟩
    exact isolated.apart other socket another number openedOther opened differ begun between
      (used.trans own.symm)

/-- The invariant after `recvAll` has changed the holder it found. What it leaves in the holder
is what is left of the message, unless the connection is closed now. -/
theorem isolated_received (isolated : Isolated transport)
    (opened : transport.current socket = some number)
    (own : FindsOwnHolder malloced transport socket number) {changed : RecvHolder}
    {processBuf : Block maxMsgLen} {current : Int → Option Nat} {connection : Connection}
    (idle : changed.firstMsgPtr = none → Holding changed [])
    (delivered : connection.frames = (messageFraming.split connection.received).1)
    (used : connection.usedLast =
      some (holderToUse (malloced transport.recvHolders.length) transport.recvHolders socket).2)
    (stays : current = transport.current ∧ Holding changed (unfinished connection) ∨
      current = Function.update transport.current socket none) :
    Isolated
      { transport with
        recvHolders :=
          (holderToUse (malloced transport.recvHolders.length) transport.recvHolders socket).1.set
            (holderToUse (malloced transport.recvHolders.length) transport.recvHolders socket).2
            changed
        processBuf := processBuf
        current := current
        connections := Function.update transport.connections number connection } := by
  obtain ⟨found, foundIs, holding, others⟩ := found_holding isolated opened own
  obtain ⟨_, inTable, table⟩ :=
    holderToUse_finds (malloced transport.recvHolders.length) transport.recvHolders socket
  unfold foundHolder at foundIs
  generalize holderToUse (malloced transport.recvHolders.length) transport.recvHolders socket =
    use at *
  obtain ⟨inside, -⟩ := List.getElem?_eq_some_iff.mp foundIs
  have earlier : ∀ other another, current other = some another →
      transport.current other = some another := by
    rcases stays with ⟨rfl, -⟩ | rfl
    · exact fun _ _ => id
    · exact fun _ _ known => (open_behind_close known).2
  have still : ∀ other, current other = some number → Holding changed (unfinished connection) := by
    intro other known
    rcases stays with ⟨-, holds⟩ | rfl
    · exact holds
    · exact absurd (isolated.distinct other socket number (earlier other number known) opened)
        (open_behind_close known).1
  constructor
  · exact fun other another known => isolated.numbered other another (earlier _ _ known)
  · exact fun one other another knownOne knownOther =>
      isolated.distinct one other another (earlier _ _ knownOne) (earlier _ _ knownOther)
  · intro another later
    have differ : another ≠ number := by
      rintro rfl
      exact Nat.not_lt.mpr later (isolated.numbered socket _ opened)
    simpa [Function.update_of_ne differ] using isolated.unopened another later
  · intro index other known pointer
    rcases Nat.decEq index use.2 with differ | rfl
    · rw [List.getElem?_set_ne (Ne.symm differ)] at known
      rcases (table index other).2 known with before | rfl
      · exact isolated.idle index other before pointer
      · exact holding_init _ _
    · rw [List.getElem?_set_self inside] at known
      obtain rfl := Option.some.inj known
      exact idle pointer
  · intro another
    by_cases same : another = number
    · subst same
      simpa using delivered
    · simpa [Function.update_of_ne same] using isolated.delivered another
  · intro other another known begun
    by_cases same : another = number
    · subst same
      refine ⟨use.2, changed, by simpa using used, List.getElem?_set_self inside, ?_⟩
      simpa using still other known
    · simp only [Function.update_of_ne same] at begun ⊢
      obtain ⟨index, holder, last, known', holds⟩ :=
        isolated.begun other another (earlier _ _ known) begun
      have differ : use.2 ≠ index := by
        rintro rfl
        exact others other another (earlier _ _ known) same begun last
      refine ⟨index, holder, last, ?_, holds⟩
      rw [List.getElem?_set_ne differ]
      exact (table index holder).1 known'
  · intro one other another further knownOne knownOther differ begunOne begunOther
    by_cases sameOne : another = number
    · subst sameOne
      have sameOther : further ≠ another := Ne.symm differ
      simp only [Function.update_self, Function.update_of_ne sameOther, used] at begunOther ⊢
      exact Ne.symm (others other further (earlier _ _ knownOther) sameOther begunOther)
    · by_cases sameOther : further = number
      · subst sameOther
        simp only [Function.update_self, Function.update_of_ne sameOne, used] at begunOne ⊢
        exact others one another (earlier _ _ knownOne) sameOne begunOne
      · simp only [Function.update_of_ne sameOne, Function.update_of_ne sameOther] at *
        exact isolated.apart one other another further (earlier _ _ knownOne)
          (earlier _ _ knownOther) differ begunOne begunOther

end Preserving

/-! ### Runs -/

section Running

variable {host : ByteOrder} {leaves : Block maxMsgLen → Block maxMsgLen}
  {malloced : Nat → Block recvQueueSize} {transport : Transport}

/-- One `recv()` that is not the end of the connection, on the holder that is found. -/
theorem recvAll_bytes {recvHolders : List RecvHolder} {queue : Block recvQueueSize}
    {socket : Int} {chunk : Bytes} {processBuf : Block maxMsgLen} {log : List Bytes}
    {holder : RecvHolder} {handled : Handled (List Bytes)}
    (found : (holderToUse queue recvHolders socket).1[(holderToUse queue recvHolders socket).2]? =
      some holder)
    (ran : recvChunk host (recordFrame leaves) holder chunk processBuf log = .ok handled) :
    ∃ outcome,
      recvAll host (recordFrame leaves) queue recvHolders socket [.bytes chunk] processBuf log =
          .ok outcome ∧
        outcome.recvHolders = (holderToUse queue recvHolders socket).1.set
          (holderToUse queue recvHolders socket).2 handled.holder ∧
        outcome.state = handled.state ∧ outcome.returnValue ≠ 1 := by
  simp only [recvAll, recvLoop, found, ran, ok_bind]
  split
  · exact ⟨_, rfl, rfl, rfl, by simp⟩
  · exact ⟨_, rfl, rfl, rfl, by simp⟩

/-- The end of the connection resets the holder that is found. -/
theorem recvAll_closed {recvHolders : List RecvHolder} {queue : Block recvQueueSize}
    {socket : Int} {processBuf : Block maxMsgLen} {log : List Bytes} {holder : RecvHolder}
    (found : (holderToUse queue recvHolders socket).1[(holderToUse queue recvHolders socket).2]? =
      some holder) :
    recvAll host (recordFrame leaves) queue recvHolders socket [.closed] processBuf log =
      .ok
        { returnValue := 1
          unread := []
          recvHolders := (holderToUse queue recvHolders socket).1.set
            (holderToUse queue recvHolders socket).2 (resetRecvHolder holder (-1))
          processBuf := processBuf
          state := log } := by
  simp only [recvAll, recvLoop, List.modify_eq_set_getElem?, found]
  rfl

/-- The step lemma: an event that meets the condition keeps the connections apart. -/
theorem socketStep_isolated {event : SocketEvent} (isolated : Isolated transport)
    (promised : Promised malloced transport event)
    (separated : Separated malloced transport event) :
    ∃ next, socketStep host leaves malloced transport event = .ok next ∧ Isolated next := by
  cases event with
  | opened socket => exact ⟨_, rfl, isolated_opened isolated promised⟩
  | closed socket => exact ⟨_, rfl, isolated_closed isolated⟩
  | received socket result =>
      cases opened : transport.current socket with
      | none =>
          refine ⟨transport, ?_, isolated⟩
          simp only [socketStep, opened]
      | some number =>
          obtain ⟨own, boundary⟩ := separated number opened
          obtain ⟨holder, found, holding, -⟩ := found_holding isolated opened own
          cases result with
          | closed =>
              simp only [socketStep, opened, recvAll_closed found, ok_bind, pure_eq_ok, if_true]
              refine ⟨_, rfl, isolated_received isolated opened own ?_ ?_ rfl (Or.inr rfl)⟩
              · exact fun pointer => .idle pointer rfl rfl
              · simpa [resultBytes] using isolated.delivered number
          | bytes chunk =>
              obtain ⟨inside, lengthField, onBoundary⟩ :=
                (boundary holder found).resolve_left RecvResult.noConfusion
              obtain ⟨begun, room⟩ := recvGives_iff.mpr ⟨promised holder found, inside⟩
              obtain ⟨handled, ran, holds, more⟩ := recvChunk_ok host leaves transport.processBuf
                (transport.connections number).frames holding begun room lengthField onBoundary
              obtain ⟨outcome, called, table, log, goesOn⟩ := recvAll_bytes found ran
              -- What arrives continues what was left of the connection's bytes.
              have split := messageFraming.split_append
                (transport.connections number).received chunk
              simp only [socketStep, opened, called, ok_bind, pure_eq_ok, if_neg goesOn, table,
                log]
              refine ⟨_, rfl, isolated_received isolated opened own (holding_nil holds) ?_ rfl
                (Or.inl ⟨rfl, ?_⟩)⟩
              · simp only [resultBytes, split]
                rw [more, isolated.delivered number]
                rfl
              · simpa only [unfinished, resultBytes, split] using holds

/-- In every run in which each connection finds its own holder and reads inside the queue, the
frames of a connection are the whole messages of its own bytes: nothing of another connection
becomes part of them. -/
theorem frames_of_own_bytes (processBuf : Block maxMsgLen) {events : List SocketEvent}
    (along : Along (socketStep host leaves malloced) (Transport.start processBuf)
      (fun _ transport event =>
        Promised malloced transport event ∧ Separated malloced transport event) events) :
    ∃ final,
      runFrom (socketStep host leaves malloced) (Transport.start processBuf) events =
          .ok final ∧
        ∀ number, (final.connections number).frames =
          (messageFraming.split (final.connections number).received).1 := by
  obtain ⟨final, ran, isolated⟩ := run_invariant (fun _ transport => Isolated transport)
    (isolated_start processBuf)
    (fun _ reached event isolated condition =>
      socketStep_isolated isolated condition.1 condition.2) along
  exact ⟨final, ran, isolated.delivered⟩

end Running

section Instances

/-- Messages in pieces on two connections, the second with the socket number of a connection
that the peer closed. -/
theorem frames_of_own_bytes_interleaved :
    let events : List SocketEvent :=
      [.opened 6, .received 6 (.bytes [0, 0, 0, 5]), .opened 5, .received 5 .closed, .opened 5,
        .received 5 (.bytes [0, 0, 0, 6, 2]), .received 6 (.bytes [9]), .received 5 (.bytes [7])]
    ∃ final,
      runFrom (socketStep .little id fun _ => Block.fill recvQueueSize 0)
          (Transport.start (Block.fill maxMsgLen 0)) events = .ok final ∧
        ∀ number, (final.connections number).frames =
          (messageFraming.split (final.connections number).received).1 :=
  frames_of_own_bytes (Block.fill maxMsgLen 0) (by decide +kernel)

/-- `close1` in the middle of a message leaves its beginning in the holder of the socket
number, and the next connection on that number gets it before its own byte. No function of its
own bytes gives its frames. -/
theorem frames_mix_after_close :
    let step := socketStep .little id fun _ => Block.fill recvQueueSize 0
    let start := Transport.start (Block.fill maxMsgLen 0)
    ¬ ∃ framesOf : Bytes → List Bytes, ∀ (events : List SocketEvent) (final : Transport),
        Along step start
          (fun _ transport event =>
            Promised (fun _ => Block.fill recvQueueSize 0) transport event) events →
        runFrom step start events = .ok final →
        ∀ number, (final.connections number).frames =
          framesOf (final.connections number).received := by
  intro step start
  rintro ⟨framesOf, function⟩
  let closedInside : List SocketEvent :=
    [.opened 5, .received 5 (.bytes [0, 0, 0, 6, 2]), .closed 5, .opened 5,
      .received 5 (.bytes [7])]
  let undisturbed : List SocketEvent := [.opened 5, .closed 5, .opened 5, .received 5 (.bytes [7])]
  obtain ⟨first, ranFirst, mixed⟩ := map_eq_ok.mp
    (show (runFrom step start closedInside).map (fun final => final.connections 1) =
      .ok { received := [7], usedLast := some 0, frames := [[0, 0, 0, 6, 2, 7]] } by
        decide +kernel)
  obtain ⟨second, ranSecond, alone⟩ := map_eq_ok.mp
    (show (runFrom step start undisturbed).map (fun final => final.connections 1) =
      .ok { received := [7], usedLast := some 0, frames := [] } by
        decide +kernel)
  have one := function closedInside first (by decide +kernel) ranFirst 1
  have other := function undisturbed second (by decide +kernel) ranSecond 1
  simp only [mixed, alone] at one other
  exact absurd (one.trans other.symm) (by decide)

end Instances

end RentMate.ConnectionIsolation
