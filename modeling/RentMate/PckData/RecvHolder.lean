/-
Module: RentMate.PckData.RecvHolder
Purpose: The receive side of `pckData.c`: the circular queue of a `recvHolder`, the handling
  of one `recv()` and the table of holders that `recvAll` searches.
Trusted boundary: human-reviewed spec
Main exports: RecvHolder, ProcessingCallback, handleMsgLen, handleMsgData, recvChunk, recvAll
-/
import RentMate.PckData.GeneralSettings
import RentMate.Machine.Buffer

namespace RentMate.PckData

open RentMate.Machine

/-- The `size` every holder is initialised with, `MAXDEVMSGLEN*3`. -/
abbrev recvQueueSize : Nat := maxDevMsgLen * 3

/-- `recvHolder`. `firstMsgPtr` is an offset from `recvQueue`; it can lie outside the queue,
where only an access through it is undefined. -/
structure RecvHolder where
  socket : Int
  recvQueue : Block recvQueueSize
  sizeUsed : Nat
  firstMsgPtr : Option Nat
  firstMsgSize : UInt32
  firstMsgSizeUsed : UInt32
deriving DecidableEq, Inhabited

/-- `initRecvHolder`. The queue holds whatever the memory from `malloc` held; that `malloc` gives none
is left out. -/
def initRecvHolder (malloced : Block recvQueueSize) (socket : Int) : RecvHolder :=
  { socket := socket
    recvQueue := malloced
    sizeUsed := 0
    firstMsgPtr := none
    firstMsgSize := 0
    firstMsgSizeUsed := 0 }

/-- `resetRecvHolder`. -/
def resetRecvHolder (holder : RecvHolder) (socket : Int) : RecvHolder :=
  { holder with
    socket := socket
    firstMsgPtr := none
    sizeUsed := 0
    firstMsgSize := 0
    firstMsgSizeUsed := 0 }

/-- `processingCallback`: it may change the buffer it is given. -/
abbrev ProcessingCallback (σ : Type) :=
  Block maxMsgLen → σ → Checked (Block maxMsgLen × σ)

/-- What `handleMsgData` returns and changes. -/
structure Handled (σ : Type) where
  recvMessagesCount : Nat
  holder : RecvHolder
  processMsgBuffer : Block maxMsgLen
  state : σ
deriving DecidableEq

/-- `firstMsgPtr` where it is dereferenced. -/
def firstMsgOffset (holder : RecvHolder) : Checked Nat :=
  match holder.firstMsgPtr with
  | none => .error .nullPointer
  | some offset => .ok offset

/-- The `size_t` a signed expression gives as a length of `memcpy`. -/
def memcpyLen (count : Int) : Checked Nat :=
  if count < 0 then .error .outOfBounds else .ok count.toNat

/-- `circulateBuffer`. -/
def circulateBuffer (holder : RecvHolder) (rs : Nat) : RecvHolder :=
  let sizeUsed := holder.sizeUsed + rs
  { holder with sizeUsed := if sizeUsed = recvQueueSize then 0 else sizeUsed }

/-- `handleMsgLen`. A `firstMsgSize` below four counts the bytes of the length field. -/
def handleMsgLen (host : ByteOrder) (holder : RecvHolder) (rs : UInt32) :
    Checked RecvHolder := do
  let holder :=
    if holder.firstMsgSize = 0 then { holder with firstMsgPtr := some holder.sizeUsed }
    else holder
  let holder := { holder with firstMsgSize := holder.firstMsgSize + rs }
  if 4 ≤ holder.firstMsgSize then
    let offset ← firstMsgOffset holder
    let word ← load32 host holder.recvQueue.bytes offset
    pure { holder with firstMsgSize := ntohl host word }
  else pure holder

/-- The distance `handleMsgData` computes from the end of what was received to the end of the
queue, cast to `int`. -/
def tillBufferEnd (holder : RecvHolder) (firstMsg : Nat) : Int :=
  Int.bmod ((recvQueueSize - 1 : Int) - (firstMsg + holder.firstMsgSizeUsed.toNat - 1))
    4294967296

/-- The copy of the first message into the process buffer. -/
def copyFirstMsg (holder : RecvHolder) (processMsgBuffer : Block maxMsgLen) :
    Checked (Block maxMsgLen) := do
  let firstMsg ← firstMsgOffset holder
  let firstMsgSize : Int := holder.firstMsgSize.toNat
  let tillEnd := tillBufferEnd holder firstMsg
  if tillEnd ≤ 0 then
    let untilEnd ← memcpyLen (firstMsgSize + tillEnd)
    let firstPart ← holder.recvQueue.read firstMsg untilEnd
    let processMsgBuffer ← processMsgBuffer.write 0 firstPart
    let fromStart ← memcpyLen (-tillEnd)
    let secondPart ← holder.recvQueue.read 0 fromStart
    processMsgBuffer.write untilEnd secondPart
  else
    let message ← holder.recvQueue.read firstMsg holder.firstMsgSize.toNat
    processMsgBuffer.write 0 message

section Receiving

variable {σ : Type} (host : ByteOrder) (callback : ProcessingCallback σ)

/-- `handleMsgData`. The fuel bounds its recursion, which takes at least five bytes off
`firstMsgSizeUsed` every time. -/
def handleMsgData :
    Nat → RecvHolder → Nat → Block maxMsgLen → σ → Checked (Handled σ)
  | 0, _, _, _, _ => .error .diverges
  | fuel + 1, holder, rs, processMsgBuffer, state =>
      if holder.firstMsgSize ≤ holder.firstMsgSizeUsed ∧ 4 < holder.firstMsgSize then do
        let processMsgBuffer ← copyFirstMsg holder processMsgBuffer
        let (processMsgBuffer, state) ← callback processMsgBuffer state
        let holder := { holder with firstMsgPtr := none }
        if holder.firstMsgSize < holder.firstMsgSizeUsed then
          -- The pointer counts from `sizeUsed`, where this `recv()` wrote.
          let holder :=
            { holder with
              firstMsgPtr := some (holder.sizeUsed + holder.firstMsgSize.toNat)
              firstMsgSizeUsed := holder.firstMsgSizeUsed - holder.firstMsgSize
              firstMsgSize := 5 }
          let holder := circulateBuffer holder rs
          let holder ← handleMsgLen host holder holder.firstMsgSizeUsed
          -- The call for the second message has its own `hasBufferCirculated`.
          let handled ← handleMsgData fuel holder rs processMsgBuffer state
          pure { handled with recvMessagesCount := handled.recvMessagesCount + 1 }
        else
          pure
            { recvMessagesCount := 1
              holder := circulateBuffer
                { holder with firstMsgSize := 0, firstMsgSizeUsed := 0 } rs
              processMsgBuffer := processMsgBuffer
              state := state }
      else
        pure
          { recvMessagesCount := 0
            holder := circulateBuffer holder rs
            processMsgBuffer := processMsgBuffer
            state := state }

/-- The bytes of one successful `recv()` enter the queue, and the length field is handled. The
length `recv()` is given is what the queue has left behind `sizeUsed`, as a `size_t`: when
`sizeUsed` has passed the end of the queue, it is huge, and what is received leaves the queue. -/
def obtainChunk (holder : RecvHolder) (chunk : Bytes) : Checked RecvHolder := do
  let recvQueue ← holder.recvQueue.write holder.sizeUsed chunk
  let holder := { holder with recvQueue := recvQueue }
  let rs := UInt32.ofNat chunk.length
  let holder ←
    if holder.firstMsgPtr = none ∨ holder.firstMsgSize < 4 then handleMsgLen host holder rs
    else pure holder
  pure { holder with firstMsgSizeUsed := holder.firstMsgSizeUsed + rs }

/-- One iteration of the loop in `recvAll`. -/
def recvChunk (holder : RecvHolder) (chunk : Bytes) (processBuf : Block maxMsgLen)
    (state : σ) : Checked (Handled σ) := do
  let holder ← obtainChunk host holder chunk
  handleMsgData host callback (holder.firstMsgSizeUsed.toNat + 1) holder chunk.length
    processBuf state

/-! ### The table of holders -/

/-- The index of the holder that `recvAll` finds for a socket: the search goes on after a
match, so the last one counts. -/
def findRecvHolder (recvHolders : List RecvHolder) (socket : Int) : Option Nat :=
  (List.range recvHolders.length).reverse.find? fun i =>
    (recvHolders[i]?).any fun holder => holder.socket = socket

/-- The index of the first holder that is free to use. -/
def findFreeRecvHolder (recvHolders : List RecvHolder) : Option Nat :=
  recvHolders.findIdx? fun holder => holder.socket = -1

/-- The table and the index of the holder to use. A free holder keeps `-1` as its socket; only
a new one gets the socket's number. -/
def holderToUse (malloced : Block recvQueueSize) (recvHolders : List RecvHolder)
    (socket : Int) : List RecvHolder × Nat :=
  match findRecvHolder recvHolders socket with
  | some index => (recvHolders, index)
  | none =>
      match findFreeRecvHolder recvHolders with
      | some index => (recvHolders, index)
      | none => (recvHolders ++ [initRecvHolder malloced socket], recvHolders.length)

/-- What one `recv()` can give. -/
inductive RecvResult where
  | bytes (chunk : Bytes)
  | closed
deriving Repr, DecidableEq

/-- What `recvAll` returns and changes, with the results of `recv()` it did not ask for. -/
structure RecvAllOutcome (σ : Type) where
  returnValue : Int
  unread : List RecvResult
  recvHolders : List RecvHolder
  processBuf : Block maxMsgLen
  state : σ

/-- The `do` loop of `recvAll` on the holder at `index`. When nothing is left to receive,
`recv()` returns `-1`. -/
def recvLoop (index : Nat) :
    List RecvResult → List RecvHolder → Block maxMsgLen → σ → Checked (RecvAllOutcome σ)
  | [], recvHolders, processBuf, state =>
      .ok
        { returnValue := -1
          unread := []
          recvHolders := recvHolders
          processBuf := processBuf
          state := state }
  | .closed :: unread, recvHolders, processBuf, state =>
      .ok
        { returnValue := 1
          unread := unread
          recvHolders := recvHolders.modify index fun holder => resetRecvHolder holder (-1)
          processBuf := processBuf
          state := state }
  | .bytes chunk :: unread, recvHolders, processBuf, state =>
      match recvHolders[index]? with
      | none => .error .nullPointer
      | some holder => do
          let handled ← recvChunk host callback holder chunk processBuf state
          let recvHolders := recvHolders.set index handled.holder
          if 1 ≤ handled.recvMessagesCount then
            pure
              { returnValue := 0
                unread := unread
                recvHolders := recvHolders
                processBuf := handled.processMsgBuffer
                state := handled.state }
          else recvLoop index unread recvHolders handled.processMsgBuffer handled.state

/-- `recvAll` on a socket whose next `recv()` calls give `results`. -/
def recvAll (malloced : Block recvQueueSize) (recvHolders : List RecvHolder) (socket : Int)
    (results : List RecvResult) (processBuf : Block maxMsgLen) (state : σ) :
    Checked (RecvAllOutcome σ) :=
  let (recvHolders, index) := holderToUse malloced recvHolders socket
  recvLoop host callback index results recvHolders processBuf state

end Receiving

end RentMate.PckData
