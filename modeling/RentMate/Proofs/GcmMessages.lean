/-
Module: RentMate.Proofs.GcmMessages
Purpose: Whole messages under the crypto library's GCM: it decrypts what it has encrypted and
  refuses everything else, and the wrappers of `aes-gcm.c` do with it what the model of the
  protocol takes for granted.
Trusted boundary: none
Main exports: startBlock, tagOver, Accepts, mbedtlsGcmCryptAndTag_ok, mbedtlsGcmCryptAndTag_refused,
  mbedtlsGcmAuthDecrypt_iff, libraryGcm, HoldsKey, HoldsKey.kept, encryptGcm_library,
  decryptGcm_library
-/
import RentMate.Proofs.GcmStream
import RentMate.PckData.AesGcm

namespace RentMate.GcmMessages

open RentMate.Machine
open RentMate.MbedtlsGcm
open RentMate.GcmStream
open RentMate.PckData (Gcm ivLen tagLen keyLen)

/-! ### The parts of a message -/

/-- The counter that a message begins with. -/
def startBlock (tables : GcmTables) (iv : Bytes) : GcmBlock :=
  if iv.length = 12 then (xorInto zeroBlock iv).setIfInBounds 15 1
  else
    let workBuf : GcmBlock :=
      Vector.replicate 12 (0 : UInt8) ++ putUint32Be (UInt64.ofNat (iv.length * 8))
    gcmMult tables (xorInto (hashWhile tables zeroBlock iv) workBuf.toList)

/-- The context behind the additional data of a message. -/
def begun (ctx : GcmContext) (mode : GcmMode) (iv add : Bytes) : GcmContext :=
  { ctx with
    len := 0
    addLen := UInt64.ofNat add.length
    baseEctr := ctx.cipherCtx (startBlock ctx.toGcmTables iv)
    y := startBlock ctx.toGcmTables iv
    buf := hashWhile ctx.toGcmTables zeroBlock add
    mode := mode }

/-- The first bytes of the masked hash that a context ends with. -/
def finalTag (ctx : GcmContext) (tagLength : Nat) : Bytes :=
  if ctx.len * 8 ≠ 0 ∨ ctx.addLen * 8 ≠ 0 then
    List.zipWith (· ^^^ ·) (ctx.baseEctr.toList.take tagLength)
      (gcmMult ctx.toGcmTables
        (xorInto ctx.buf (putWords (ctx.addLen * 8) (ctx.len * 8)).toList)).toList
  else ctx.baseEctr.toList.take tagLength

/-- The tag of a masked text. -/
def tagOver (tables : GcmTables) (cipher : GcmBlock → GcmBlock) (iv add masked : Bytes)
    (tagLength : Nat) : Bytes :=
  finalTag
    { toGcmTables := tables
      cipherCtx := cipher
      len := UInt64.ofNat masked.length
      addLen := UInt64.ofNat add.length
      baseEctr := cipher (startBlock tables iv)
      y := zeroBlock
      buf := hashWhile tables (hashWhile tables zeroBlock add) masked
      mode := .decrypt }
    tagLength

/-- The lengths that the library accepts. -/
structure Accepts (ivLength addLength length tagLength : Nat) : Prop where
  ivBegun : 0 < ivLength
  ivShort : ivLength < 2 ^ 61
  addShort : addLength < 2 ^ 61
  short : length ≤ 0xFFFFFFFE0
  tagLong : 4 ≤ tagLength
  tagShort : tagLength ≤ 16

section Messages

variable (ctx : GcmContext) (mode : GcmMode) {iv add masked tag text : Bytes}
  {tagLength : Nat}

/-- The tag has the length that was asked for. -/
theorem length_finalTag (short : tagLength ≤ 16) : (finalTag ctx tagLength).length = tagLength := by
  rw [finalTag]
  split
  · rw [List.length_zipWith, List.length_take, Vector.length_toList, Vector.length_toList]
    omega
  · rw [List.length_take, Vector.length_toList]
    omega

/-- The tag over a message has the length that was asked for. -/
theorem length_tagOver (tables : GcmTables) (cipher : GcmBlock → GcmBlock) (iv add masked : Bytes)
    (short : tagLength ≤ 16) : (tagOver tables cipher iv add masked tagLength).length = tagLength :=
  length_finalTag _ short

/-- `mbedtls_gcm_starts` begins a message, or refuses its lengths. -/
theorem mbedtlsGcmStarts_eq (iv add : Bytes) :
    mbedtlsGcmStarts ctx mode iv add =
      if 0 < iv.length ∧ iv.length < 2 ^ 61 ∧ add.length < 2 ^ 61 then .ok (begun ctx mode iv add)
      else .error errGcmBadInput := by
  have refused : iv.length = 0 ∨ iv.length >>> 61 ≠ 0 ∨ add.length >>> 61 ≠ 0 ↔
      ¬ (0 < iv.length ∧ iv.length < 2 ^ 61 ∧ add.length < 2 ^ 61) := by
    rw [Nat.shiftRight_eq_div_pow, Nat.shiftRight_eq_div_pow]
    omega
  have counts : (xorInto zeroBlock iv).setIfInBounds 15 1 = (xorInto zeroBlock iv).set 15 1 := by
    refine Vector.ext fun i inside => ?_
    rw [Vector.getElem_setIfInBounds, Vector.getElem_set]
  rw [mbedtlsGcmStarts]
  by_cases fits : 0 < iv.length ∧ iv.length < 2 ^ 61 ∧ add.length < 2 ^ 61
  · rw [if_pos fits, if_neg fun exceeds => refused.mp exceeds fits, begun, startBlock, counts]
    rfl
  · rw [if_neg fits, if_pos (refused.mpr fits)]

/-- `mbedtls_gcm_finish` gives the tag of what has been hashed. -/
theorem mbedtlsGcmFinish_ok (long : 4 ≤ tagLength) (short : tagLength ≤ 16) :
    ∃ next, mbedtlsGcmFinish ctx tagLength = .ok (next, finalTag ctx tagLength) ∧
      next.toGcmTables = ctx.toGcmTables ∧ next.cipherCtx = ctx.cipherCtx := by
  rw [mbedtlsGcmFinish, finalTag, if_neg (by omega)]
  by_cases hashes : ctx.len * 8 ≠ 0 ∨ ctx.addLen * 8 ≠ 0
  · rw [if_pos hashes, if_pos hashes]
    exact ⟨_, rfl, rfl, rfl⟩
  · rw [if_neg hashes, if_neg hashes]
    exact ⟨_, rfl, rfl, rfl⟩

/-- A message with lengths that are accepted is masked, and its tag is the one over the masked
text. The context stays one for the same key. -/
theorem mbedtlsGcmCryptAndTag_ok (input output : Bytes)
    (accepts : Accepts iv.length add.length input.length tagLength) :
    ∃ next, mbedtlsGcmCryptAndTag ctx mode iv add input output tagLength =
        (.ok (next, tagOver ctx.toGcmTables ctx.cipherCtx iv add
          (hashedText mode input
            (streamed ctx.cipherCtx (startBlock ctx.toGcmTables iv) input)) tagLength),
          streamed ctx.cipherCtx (startBlock ctx.toGcmTables iv) input) ∧
      next.toGcmTables = ctx.toGcmTables ∧ next.cipherCtx = ctx.cipherCtx := by
  have sized : (hashedText mode input
      (streamed ctx.cipherCtx (startBlock ctx.toGcmTables iv) input)).length = input.length :=
    length_hashedText mode (length_streamed ..)
  have started : mbedtlsGcmStarts ctx mode iv add = .ok (begun ctx mode iv add) := by
    rw [mbedtlsGcmStarts_eq, if_pos ⟨accepts.ivBegun, accepts.ivShort, accepts.addShort⟩]
  have updated : mbedtlsGcmUpdate (begun ctx mode iv add) input =
      .ok (updateWhile { begun ctx mode iv add with len := UInt64.ofNat input.length } input) := by
    have fits : (begun ctx mode iv add).len.toNat + input.length ≤ 0xFFFFFFFE0 := by
      rw [begun, UInt64.toNat_zero, Nat.zero_add]
      exact accepts.short
    have short := accepts.short
    rw [mbedtlsGcmUpdate_eq _ (by omega), if_pos fits, begun, UInt64.zero_add]
  rw [updateWhile_eq] at updated
  obtain ⟨next, finished, tables, cipher⟩ := mbedtlsGcmFinish_ok
    { begun ctx mode iv add with
      len := UInt64.ofNat input.length
      y := counted (startBlock ctx.toGcmTables iv) (blockCount input.length)
      buf := hashWhile ctx.toGcmTables (hashWhile ctx.toGcmTables zeroBlock add)
        (hashedText mode input
          (streamed ctx.cipherCtx (startBlock ctx.toGcmTables iv) input)) }
    accepts.tagLong accepts.tagShort
  refine ⟨next, ?_, tables, cipher⟩
  rw [mbedtlsGcmCryptAndTag, started]
  dsimp only
  rw [updated]
  dsimp only
  rw [tagOver, sized]
  exact congrArg (·, streamed ctx.cipherCtx (startBlock ctx.toGcmTables iv) input) finished

/-- Lengths that are not accepted are refused. -/
theorem mbedtlsGcmCryptAndTag_refused (input output : Bytes) (short : input.length < 2 ^ 64)
    (refuses : ¬ Accepts iv.length add.length input.length tagLength) :
    ∃ left, mbedtlsGcmCryptAndTag ctx mode iv add input output tagLength =
      (.error errGcmBadInput, left) := by
  rw [mbedtlsGcmCryptAndTag, mbedtlsGcmStarts_eq]
  by_cases starts : 0 < iv.length ∧ iv.length < 2 ^ 61 ∧ add.length < 2 ^ 61
  · rw [if_pos starts]
    dsimp only
    rw [mbedtlsGcmUpdate_eq _ short]
    by_cases fits : (begun ctx mode iv add).len.toNat + input.length ≤ 0xFFFFFFFE0
    · rw [if_pos fits]
      have outside : 16 < tagLength ∨ tagLength < 4 := by
        by_contra inside
        refine refuses ⟨starts.1, starts.2.1, starts.2.2, ?_, by omega, by omega⟩
        rw [begun, UInt64.toNat_zero, Nat.zero_add] at fits
        exact fits
      dsimp only
      rw [mbedtlsGcmFinish, if_pos outside]
      exact ⟨_, rfl⟩
    · rw [if_neg fits]
      exact ⟨_, rfl⟩
  · rw [if_neg starts]
    exact ⟨_, rfl⟩

/-! ### The comparison of tags -/

/-- Bytes that are or-ed together give zero only if all of them are. -/
theorem foldl_or_eq_zero {bytes : Bytes} {start : UInt8} :
    bytes.foldl (· ||| ·) start = 0 ↔ start = 0 ∧ ∀ byte ∈ bytes, byte = 0 := by
  induction bytes generalizing start with
  | nil => simp
  | cons byte bytes ih => simp [ih, UInt8.or_eq_zero_iff, and_assoc]

/-- The comparison that takes the same time whatever it compares. -/
theorem diff_eq_zero {one other : Bytes} (sized : one.length = other.length) :
    (List.zipWith (· ^^^ ·) one other).foldl (· ||| ·) 0 = 0 ↔ one = other := by
  rw [foldl_or_eq_zero]
  induction one generalizing other with
  | nil =>
      obtain rfl : other = [] := List.eq_nil_of_length_eq_zero sized.symm
      simp
  | cons byte one ih =>
      cases other with
      | nil => cases sized
      | cons another other =>
          have tails := ih (Nat.succ.inj sized)
          simp only [true_and] at tails
          have heads : byte ^^^ another = 0 ↔ byte = another := UInt8.xor_eq_zero_iff
          simp only [List.zipWith_cons_cons, List.forall_mem_cons, heads, tails, true_and,
            List.cons.injEq]

/-- Within the accepted lengths the text comes out under the right tag, and zeros under any other.
-/
theorem mbedtlsGcmAuthDecrypt_ok (before : Bytes)
    (accepts : Accepts iv.length add.length masked.length tag.length) :
    ∃ next, mbedtlsGcmAuthDecrypt ctx iv add tag masked before =
      if tagOver ctx.toGcmTables ctx.cipherCtx iv add masked tag.length = tag then
        (.ok next, streamed ctx.cipherCtx (startBlock ctx.toGcmTables iv) masked)
      else (.error errGcmAuthFailed, List.replicate masked.length 0) := by
  obtain ⟨next, ran, -⟩ := mbedtlsGcmCryptAndTag_ok ctx .decrypt masked before accepts
  refine ⟨next, ?_⟩
  have sized : tag.length =
      (tagOver ctx.toGcmTables ctx.cipherCtx iv add masked tag.length).length :=
    (length_tagOver _ _ iv add masked accepts.tagShort).symm
  rw [mbedtlsGcmAuthDecrypt, ran]
  by_cases same : tagOver ctx.toGcmTables ctx.cipherCtx iv add masked tag.length = tag
  · rw [if_pos same]
    exact if_neg (not_not_intro ((diff_eq_zero sized).mpr same.symm))
  · rw [if_neg same]
    exact if_pos fun equal => same ((diff_eq_zero sized).mp equal).symm

/-- Lengths that are not accepted are refused. -/
theorem mbedtlsGcmAuthDecrypt_refused (before : Bytes) (short : masked.length < 2 ^ 64)
    (refuses : ¬ Accepts iv.length add.length masked.length tag.length) :
    ∃ left, mbedtlsGcmAuthDecrypt ctx iv add tag masked before = (.error errGcmBadInput, left) := by
  obtain ⟨left, ran⟩ := mbedtlsGcmCryptAndTag_refused ctx .decrypt masked before short refuses
  refine ⟨left, ?_⟩
  rw [mbedtlsGcmAuthDecrypt, ran]

/-! ### Round trips -/

/-- When a text is encrypted to a given one under a given tag. -/
theorem encrypts_iff (before : Bytes) (short : text.length < 2 ^ 64) :
    (∃ next, mbedtlsGcmCryptAndTag ctx .encrypt iv add text before tag.length =
        (.ok (next, tag), masked)) ↔
      Accepts iv.length add.length text.length tag.length ∧
        tagOver ctx.toGcmTables ctx.cipherCtx iv add masked tag.length = tag ∧
        streamed ctx.cipherCtx (startBlock ctx.toGcmTables iv) text = masked := by
  by_cases accepts : Accepts iv.length add.length text.length tag.length
  · obtain ⟨after, ran, -⟩ := mbedtlsGcmCryptAndTag_ok ctx .encrypt text before accepts
    rw [hashedText] at ran
    rw [ran]
    constructor
    · rintro ⟨next, encrypted⟩
      obtain ⟨ended, rfl⟩ := Prod.ext_iff.mp encrypted
      exact ⟨accepts, (Prod.ext_iff.mp (Except.ok.inj ended)).2, rfl⟩
    · rintro ⟨-, same, rfl⟩
      exact ⟨after, by rw [same]⟩
  · obtain ⟨left, ran⟩ := mbedtlsGcmCryptAndTag_refused ctx .encrypt text before short accepts
    rw [ran]
    constructor
    · rintro ⟨next, encrypted⟩
      cases encrypted
    · rintro ⟨accepted, -⟩
      exact absurd accepted accepts

/-- When a text is decrypted to a given one under a given tag. -/
theorem decrypts_iff (before : Bytes) (short : masked.length < 2 ^ 64) :
    (∃ next, mbedtlsGcmAuthDecrypt ctx iv add tag masked before = (.ok next, text)) ↔
      Accepts iv.length add.length masked.length tag.length ∧
        tagOver ctx.toGcmTables ctx.cipherCtx iv add masked tag.length = tag ∧
        streamed ctx.cipherCtx (startBlock ctx.toGcmTables iv) masked = text := by
  by_cases accepts : Accepts iv.length add.length masked.length tag.length
  · obtain ⟨after, ran⟩ := mbedtlsGcmAuthDecrypt_ok ctx before accepts
    rw [ran]
    constructor
    · rintro ⟨next, accepted⟩
      split at accepted
      next same => exact ⟨accepts, same, (Prod.ext_iff.mp accepted).2⟩
      next => cases accepted
    · rintro ⟨-, same, rfl⟩
      exact ⟨after, if_pos same⟩
  · obtain ⟨left, ran⟩ := mbedtlsGcmAuthDecrypt_refused ctx before short accepts
    rw [ran]
    constructor
    · rintro ⟨next, accepted⟩
      cases accepted
    · rintro ⟨accepted, -⟩
      exact absurd accepted accepts

/-- A message is accepted with a text exactly when it is what that text is encrypted to. -/
theorem mbedtlsGcmAuthDecrypt_iff (iv add tag before : Bytes) (short : masked.length < 2 ^ 64)
    (shortText : text.length < 2 ^ 64) :
    (∃ next, mbedtlsGcmAuthDecrypt ctx iv add tag masked before = (.ok next, text)) ↔
      ∃ next, mbedtlsGcmCryptAndTag ctx .encrypt iv add text before tag.length =
        (.ok (next, tag), masked) := by
  rw [decrypts_iff ctx before short, encrypts_iff ctx before shortText]
  constructor
  · rintro ⟨accepts, same, rfl⟩
    exact ⟨by rw [length_streamed]; exact accepts, same, streamed_streamed ..⟩
  · rintro ⟨accepts, same, rfl⟩
    exact ⟨by rw [length_streamed]; exact accepts, same, streamed_streamed ..⟩

end Messages

/-- The context of a key under a cipher that adds the first byte of the key to every byte. -/
def addingCtx : GcmContext :=
  (initGcm (fun key block => block.map (· + key.headD 0)) [5] (keyLen * 8)).2

/-- The tag of the text "hello" with three bytes of additional data. -/
def helloTag : Bytes := [231, 188, 123, 23, 166, 208, 248, 23, 173, 178, 77, 178, 70, 185, 70, 186]

/-- A text of five bytes, three bytes of additional data and a tag of sixteen. -/
theorem mbedtlsGcmAuthDecrypt_hello :
    ∃ next, mbedtlsGcmAuthDecrypt addingCtx (List.replicate ivLen 9) [1, 2, 3] helloTag
      [102, 107, 98, 98, 97] [] = (.ok next, [104, 101, 108, 108, 111]) := by
  have tagged : tagOver addingCtx.toGcmTables addingCtx.cipherCtx (List.replicate ivLen 9) [1, 2, 3]
      [102, 107, 98, 98, 97] tagLen = helloTag := by
    rw [tagOver, hashWhile_block _ _ (by decide) (by decide),
      hashWhile_block _ _ (by decide) (by decide)]
    decide +kernel
  have masked : streamed addingCtx.cipherCtx
      (startBlock addingCtx.toGcmTables (List.replicate ivLen 9)) [104, 101, 108, 108, 111] =
        [102, 107, 98, 98, 97] := by
    decide +kernel
  have accepts : Accepts ivLen 3 5 tagLen := by
    constructor <;> decide
  exact (mbedtlsGcmAuthDecrypt_iff addingCtx (List.replicate ivLen 9) [1, 2, 3] helloTag []
    (by decide) (by decide)).mpr
    ((encrypts_iff addingCtx [] (by decide)).mpr ⟨accepts, tagged, masked⟩)

/-! ### The wrappers -/

section Wrappers

variable (aes : Bytes → GcmBlock → GcmBlock) {key : Bytes} {ctx : GcmContext}
  {size outputSize : Nat}

/-- The tables of a key. -/
def tablesOf (key : Bytes) : GcmTables :=
  (gcmGenTable { mbedtlsGcmInit with cipherCtx := aes key }).toGcmTables

/-- The library as the authenticated encryption that the protocol's model has as a parameter. -/
def libraryGcm : Gcm where
  keystream key iv index := keystreamByte (aes key) (startBlock (tablesOf aes key) iv) index
  authenticate key iv add masked :=
    { bytes := tagOver (tablesOf aes key) (aes key) iv add masked tagLen
      allocated := length_tagOver _ _ iv add masked (Nat.le_refl 16) }

/-- A context with the cipher of a key and its tables, whatever the last message has left in it. -/
structure HoldsKey (key : Bytes) (ctx : GcmContext) : Prop where
  tables : ctx.toGcmTables = tablesOf aes key
  cipher : ctx.cipherCtx = aes key

/-- `initGcm` leaves the key in the context. -/
theorem holdsKey_initGcm (key : Bytes) : HoldsKey aes key (initGcm aes key (keyLen * 8)).2 :=
  ⟨rfl, rfl⟩

variable {aes}

/-- A context keeps its key over every message. -/
theorem HoldsKey.kept (holds : HoldsKey aes key ctx) {mode : GcmMode} {next : GcmContext}
    {iv add input output tag out : Bytes} {tagLength : Nat} (short : input.length < 2 ^ 64)
    (ran : mbedtlsGcmCryptAndTag ctx mode iv add input output tagLength =
      (.ok (next, tag), out)) : HoldsKey aes key next := by
  by_cases accepts : Accepts iv.length add.length input.length tagLength
  · obtain ⟨after, again, tables, cipher⟩ := mbedtlsGcmCryptAndTag_ok ctx mode input output accepts
    rw [again] at ran
    obtain ⟨ended, -⟩ := Prod.ext_iff.mp ran
    obtain ⟨rfl, -⟩ := Prod.ext_iff.mp (Except.ok.inj ended)
    exact ⟨tables.trans holds.tables, cipher.trans holds.cipher⟩
  · obtain ⟨left, refused⟩ := mbedtlsGcmCryptAndTag_refused ctx mode input output short accepts
    rw [refused] at ran
    cases ran

/-- The encryption of the library, as the protocol uses it. -/
theorem crypt_library (key iv text : Bytes) :
    (libraryGcm aes).crypt key iv text =
      streamed (aes key) (startBlock (tablesOf aes key) iv) text := rfl

/-- The tag of the library, as the protocol uses it. -/
theorem tagOf_library (key iv add masked : Bytes) :
    (libraryGcm aes).tagOf key iv add masked =
      tagOver (tablesOf aes key) (aes key) iv add masked tagLen := rfl

/-- The lengths of the protocol's messages are accepted. -/
theorem accepts_lengths {iv add text : Bytes} {addLen msgLen : Nat} (ivSized : iv.length = ivLen)
    (addSized : add.length = addLen) (sized : text.length = msgLen) (addShort : addLen < 2 ^ 61)
    (short : msgLen ≤ 0xFFFFFFFE0) : Accepts iv.length add.length text.length tagLen := by
  rw [ivSized, addSized, sized]
  exact ⟨by decide, by decide, addShort, short, by decide, by decide⟩

/-- `encryptGcm` over the library is the one that the protocol is modelled with, and succeeds. -/
theorem encryptGcm_library (holds : HoldsKey aes key ctx) (memory : Block size)
    (msg iv add tagOut : Nat) {msgLen addLen : Nat} (short : msgLen ≤ 0xFFFFFFFE0)
    (addShort : addLen < 2 ^ 61) :
    MbedtlsGcm.encryptGcm ctx memory msg msgLen iv ivLen add addLen tagOut tagLen =
      (PckData.encryptGcm (libraryGcm aes) key memory msg msgLen iv add addLen tagOut).map
        (0, ·) := by
  rw [MbedtlsGcm.encryptGcm, PckData.encryptGcm]
  cases ivRead : memory.read iv ivLen with
  | error fault => rfl
  | ok ivBytes =>
      cases addRead : memory.read add addLen with
      | error fault => rfl
      | ok addBytes =>
          cases textRead : memory.read msg msgLen with
          | error fault => rfl
          | ok text =>
              obtain ⟨next, ran, -⟩ := mbedtlsGcmCryptAndTag_ok ctx .encrypt text text
                (accepts_lengths (Block.length_read ivRead) (Block.length_read addRead)
                  (Block.length_read textRead) addShort short)
              rw [holds.tables, holds.cipher, hashedText, ← crypt_library, ← tagOf_library] at ran
              simp only [ok_bind, ran]
              cases memory.write msg ((libraryGcm aes).crypt key ivBytes text) with
              | error fault => rfl
              | ok masked =>
                  simp only [ok_bind]
                  cases masked.write tagOut ((libraryGcm aes).tagOf key ivBytes addBytes
                    ((libraryGcm aes).crypt key ivBytes text)) <;> rfl

/-- `decryptGcm` over the library is the one that the protocol is modelled with. -/
theorem decryptGcm_library (holds : HoldsKey aes key ctx) (memory : Block size)
    (msg iv add tag : Nat) (msgOut : Block outputSize) {msgLen addLen : Nat}
    (short : msgLen ≤ 0xFFFFFFFE0) (addShort : addLen < 2 ^ 61) :
    MbedtlsGcm.decryptGcm ctx memory msg msgLen iv ivLen add addLen tag tagLen msgOut =
      PckData.decryptGcm (libraryGcm aes) key memory msg msgLen iv add addLen tag msgOut := by
  rw [MbedtlsGcm.decryptGcm, PckData.decryptGcm]
  cases ivRead : memory.read iv ivLen with
  | error fault => rfl
  | ok ivBytes =>
      cases addRead : memory.read add addLen with
      | error fault => rfl
      | ok addBytes =>
          cases maskedRead : memory.read msg msgLen with
          | error fault => rfl
          | ok masked =>
              cases tagRead : memory.read tag tagLen with
              | error fault => rfl
              | ok tagBytes =>
                  have sized := Block.length_read maskedRead
                  have accepts : Accepts ivBytes.length addBytes.length masked.length
                      tagBytes.length := by
                    rw [Block.length_read tagRead]
                    exact accepts_lengths (Block.length_read ivRead) (Block.length_read addRead)
                      sized addShort short
                  simp only [ok_bind]
                  by_cases room : 0 + msgLen ≤ outputSize ∨ msgLen = 0
                  · obtain ⟨next, ran⟩ :=
                      mbedtlsGcmAuthDecrypt_ok ctx (slice msgOut.bytes 0 msgLen) accepts
                    rw [holds.tables, holds.cipher, ← crypt_library, Block.length_read tagRead,
                      ← tagOf_library, sized] at ran
                    rw [Block.read_eq_ok.mpr ⟨room, rfl⟩, ok_bind, ran, StreamAead.authDecrypt]
                    by_cases same : (libraryGcm aes).tagOf key ivBytes addBytes masked = tagBytes
                    · rw [if_pos same, if_pos same]
                    · rw [if_neg same, if_neg same]
                      rfl
                  · obtain ⟨small, more⟩ := not_or.mp room
                    have opened : ((libraryGcm aes).crypt key ivBytes masked).length = msgLen := by
                      rw [StreamAead.length_crypt, sized]
                    have wiped : (List.replicate msgLen (0 : UInt8)).length = msgLen :=
                      List.length_replicate
                    rw [msgOut.read_refused small more, error_bind, StreamAead.authDecrypt]
                    by_cases same : (libraryGcm aes).tagOf key ivBytes addBytes masked = tagBytes
                    · rw [if_pos same]
                      dsimp only
                      rw [msgOut.write_refused (by rw [opened]; exact small)
                        (List.ne_nil_of_length_pos (by omega))]
                      rfl
                    · rw [if_neg same]
                      dsimp only
                      rw [msgOut.write_refused (by rw [wiped]; exact small)
                        (List.ne_nil_of_length_pos (by omega))]
                      rfl

end Wrappers

/-- Eight bytes of a buffer of sevens, with the identity as the cipher. -/
theorem encryptGcm_library_sevens :
    MbedtlsGcm.encryptGcm (initGcm (fun _ block => block) [1] (keyLen * 8)).2 (Block.fill 40 7)
        0 8 8 ivLen 20 4 24 tagLen =
      (PckData.encryptGcm (libraryGcm fun _ block => block) [1] (Block.fill 40 7)
        0 8 8 20 4 24).map (0, ·) :=
  encryptGcm_library (holdsKey_initGcm _ [1]) (Block.fill 40 7) 0 8 20 24 (by decide) (by decide)

/-- The same bytes, decrypted. -/
theorem decryptGcm_library_sevens :
    MbedtlsGcm.decryptGcm (initGcm (fun _ block => block) [1] (keyLen * 8)).2 (Block.fill 40 7)
        0 8 8 ivLen 20 4 24 tagLen (Block.fill 8 0) =
      PckData.decryptGcm (libraryGcm fun _ block => block) [1] (Block.fill 40 7) 0 8 8 20 4 24
        (Block.fill 8 0) :=
  decryptGcm_library (holdsKey_initGcm _ [1]) (Block.fill 40 7) 0 8 20 24 (Block.fill 8 0)
    (by decide) (by decide)

end RentMate.GcmMessages
