/-
Module: RentMate.Proofs.LibraryExchange
Purpose: Key exchanges between a node and the server that run on the key exchange library itself:
  that it keeps the promise that the exchanges rely on, for which two random numbers an exchange
  that nothing interrupts leaves both ends with a common key, and which key that is.
Trusted boundary: none
Main exports: library, sharedSecret_library, library_correct, KeyOfMultiple, library_exchange_iff
-/
import RentMate.Proofs.KeyAgreement
import RentMate.Proofs.KeyExchange

namespace RentMate.KeyExchange

open RentMate.Machine
open RentMate.PckData
open RentMate.MainServer (findDevInfo)
open RentMate.SessionCodec
open RentMate.TinyEcdh (ecdhGenerateKeys ecdhSharedSecret publicKeyBlock baseX baseY)
open RentMate.Gf2Curve
open RentMate.EcdhKeys

/-- The library as both ends call it. A call of `ecdh_shared_secret` that does not come back would
give no secret; on the keys that the library makes every call comes back
(`sharedSecret_library`). -/
def library (host : ByteOrder) : Ecdh :=
  { generateKeys := fun drawn =>
      match ecdhGenerateKeys host drawn with
      | .ok keys => keys
      | .error _ => (false, publicKeyBlock host (baseX, baseY), drawn)
    sharedSecret := fun privateKey publicKey =>
      match ecdhSharedSecret host privateKey publicKey with
      | .ok secret => secret
      | .error _ => none }

/-! ### The keys of the library -/

section Library

variable {host : ByteOrder} {drawn drawnOther : Block eccPrvKeySize}

/-- Every call of `ecdh_generate_keys` comes back with the keys that the exchange uses. -/
theorem generateKeys_library (host : ByteOrder) (drawn : Block eccPrvKeySize) :
    ecdhGenerateKeys host drawn = .ok (((library host).generateKeys drawn).1,
      publicKeyOf (library host) drawn, privateKeyOf (library host) drawn) := by
  obtain ⟨taken, publicKey, privateKey, ran, -⟩ := ecdhGenerateKeys_eq host drawn
  simp only [publicKeyOf, privateKeyOf, library, ran]

/-- On a public key that the library has made every call of `ecdh_shared_secret` comes back: with
the multiple of the base point, or without a secret if that key is the point at infinity. -/
theorem sharedSecret_library (host : ByteOrder) (privateKey : Block eccPrvKeySize)
    (drawnOther : Block eccPrvKeySize) :
    ecdhSharedSecret host privateKey (publicKeyOf (library host) drawnOther) =
      .ok ((library host).sharedSecret privateKey (publicKeyOf (library host) drawnOther)) := by
  have returns : ∃ secret, ecdhSharedSecret host privateKey
      (publicKeyOf (library host) drawnOther) = .ok secret := by
    have ranOther := generateKeys_library host drawnOther
    by_cases vanishes : publicMultiple (secretOf host drawnOther) = 0
    · exact ⟨none, no_secret_of_zero ranOther vanishes⟩
    · obtain ⟨-, point, same, represents⟩ := generated ranOther
      rw [same]
      obtain ⟨secret, derived, -⟩ := ecdhSharedSecret_ok host privateKey
        (by rwa [pairOf_block]) (multiple_ne_zero vanishes)
      exact ⟨_, derived⟩
  obtain ⟨secret, ran⟩ := returns
  simp only [library] at ran ⊢
  rw [ran]

/-- The library takes a number for a private key if it has more than eighty bits. -/
theorem taken_library (host : ByteOrder) (drawn : Block eccPrvKeySize) :
    ((library host).generateKeys drawn).1 = true ↔ 81 ≤ (secretOf host drawn).size := by
  obtain ⟨taken, publicKey, privateKey, ran, decided, -⟩ := ecdhGenerateKeys_eq host drawn
  simp only [library, ran]
  exact decided

/-- For a number that the library takes the public key belongs to the private one. -/
theorem multiples_of_taken (long : 81 ≤ (secretOf host drawn).size) :
    publicMultiple (secretOf host drawn) = secretOf host drawn % 2 ^ 162 ∧
      privateNumber (secretOf host drawn) = secretOf host drawn % 2 ^ 162 := by
  rw [publicMultiple, privateNumber, if_neg (not_lt.mpr long), if_neg (not_lt.mpr long)]
  exact ⟨rfl, rfl⟩

/-- A public key that the library makes is valid unless it is the point at infinity. -/
theorem validKey_library (host : ByteOrder) (drawn : Block eccPrvKeySize) :
    (library host).ValidKey (publicKeyOf (library host) drawn) ↔
      publicMultiple (secretOf host drawn) ≠ 0 := by
  have ran := generateKeys_library host drawn
  constructor
  · rintro ⟨privateKey, secret, derived⟩ vanishes
    have returned := sharedSecret_library host privateKey drawn
    rw [derived, no_secret_of_zero ran vanishes] at returned
    cases returned
  · intro begun
    obtain ⟨secret, derived, -⟩ := secret_of_generated ran ran begun
    rw [sharedSecret_library] at derived
    exact ⟨privateKeyOf (library host) drawn, _, Except.ok.inj derived⟩

/-- The library keeps its promise. -/
theorem library_correct (host : ByteOrder) : (library host).Correct := by
  refine ⟨?_, fun one other usable usableOther => ?_⟩
  · -- The number 2^80.
    let exp : TinyEcdh.Scalar := #v[0, 0, 0x10000, 0, 0, 0]
    have drawn : 81 ≤ (secretOf host (TinyEcdh.privateKeyBlock host exp)).size ∧
        publicMultiple (secretOf host (TinyEcdh.privateKeyBlock host exp)) ≠ 0 := by
      rw [secretOf, load_privateKey]
      decide
    exact ⟨_, (taken_library host _).mpr drawn.1, (validKey_library host _).mpr drawn.2⟩
  · have begun := (validKey_library host one).mp usable.valid
    have begunOther := (validKey_library host other).mp usableOther.valid
    obtain ⟨multiple, number⟩ := multiples_of_taken ((taken_library host one).mp usable.taken)
    obtain ⟨multipleOther, numberOther⟩ :=
      multiples_of_taken ((taken_library host other).mp usableOther.taken)
    obtain ⟨secret, derived, derivedOther⟩ :=
      (ecdh_agrees_iff (generateKeys_library host one) (generateKeys_library host other)).mpr
        ⟨begun, begunOther, by rw [multiple, number, multipleOther, numberOther, Nat.mul_comm]⟩
    rw [sharedSecret_library] at derived derivedOther
    exact ⟨secret, Except.ok.inj derived, Except.ok.inj derivedOther⟩

/-- The key that is cut from the multiple of the base point by a number. -/
def KeyOfMultiple (host : ByteOrder) (number : Nat) (key : Block keyLen) : Prop :=
  ∃ point, Represents point (number • base) ∧ key = keyOf (publicKeyBlock host point)

/-- A number gives one key. -/
theorem KeyOfMultiple.unique {number : Nat} {key other : Block keyLen}
    (isKey : KeyOfMultiple host number key) (isOther : KeyOfMultiple host number other) :
    key = other := by
  obtain ⟨point, represents, rfl⟩ := isKey
  obtain ⟨again, representsAgain, rfl⟩ := isOther
  rw [represents.unique representsAgain]

/-- The key that an end derives from a valid key of another. -/
theorem derivedKey_library (drawn : Block eccPrvKeySize)
    (begun : publicMultiple (secretOf host drawnOther) ≠ 0) (left : Block eccPubKeySize) :
    KeyOfMultiple host
      (privateNumber (secretOf host drawn) * publicMultiple (secretOf host drawnOther))
      (derivedKey (library host) drawn (publicKeyOf (library host) drawnOther) left) := by
  obtain ⟨point, derived, represents⟩ := secret_of_generated (generateKeys_library host drawn)
    (generateKeys_library host drawnOther) begun
  rw [sharedSecret_library] at derived
  refine ⟨point, represents, ?_⟩
  rw [derivedKey, Except.ok.inj derived, Option.getD_some]

/-- From the point at infinity an end derives nothing: it keeps what it had. -/
theorem derivedKey_left (vanishes : publicMultiple (secretOf host drawnOther) = 0)
    (left : Block eccPubKeySize) :
    derivedKey (library host) drawn (publicKeyOf (library host) drawnOther) left = keyOf left := by
  have derived : ecdhSharedSecret host (privateKeyOf (library host) drawn)
      (publicKeyOf (library host) drawnOther) = .ok none :=
    no_secret_of_zero (generateKeys_library host drawnOther) vanishes
  rw [sharedSecret_library] at derived
  rw [derivedKey, Except.ok.inj derived, Option.getD_none]

/-- What an end keeps decides its key. -/
theorem keyOf_fill_injective {byte other : UInt8}
    (same : keyOf (Block.fill eccPubKeySize byte) = keyOf (Block.fill eccPubKeySize other)) :
    byte = other := by
  have heads := congrArg (fun key : Block keyLen => key.bytes.head?) same
  exact Option.some.inj heads

end Library

/-! ### Exchanges with the library -/

/-- With the library, too, a node without a key that waits in no exchange can recover exactly if the
server does not know it. -/
theorem recoverable_library_iff {devId : Block devIdLen} {pairing : Pairing}
    (nodeHost host keyHost : ByteOrder) (gcm : Gcm) :
    Recoverable nodeHost host gcm (library keyHost) devId pairing ↔
      (pairing.node.hasEncryptionContextBeenEstablished = false → Idle pairing →
        findDevInfo pairing.server.devInfos devId.bytes = none) :=
  recoverable_iff_unknown nodeHost host gcm (library_correct keyHost)

section Draws

variable {nodeHost host keyHost : ByteOrder} {gcm : Gcm} {devId : Block devIdLen}
  {pairing : Pairing} {drawnNode drawnServer : Block eccPrvKeySize}

/-- The surroundings of an exchange with two given random numbers. Those for one pair of numbers
differ in what the buffers for the shared keys hold, and in nothing else. -/
def drawnAround (drawnNode drawnServer : Block eccPrvKeySize) (ofNode ofServer : UInt8) :
    Surroundings :=
  { (default : Surroundings) with
    privateDHKey := drawnNode
    env :=
      { (default : MainServer.ServerEnv) with
        privateDHKey := drawnServer
        sharedDHKey := .fill eccPubKeySize ofServer }
    nodeEnv := { (default : NodeClient.NodeEnv) with sharedDHKey := .fill eccPubKeySize ofNode } }

/-- An end whose key is the other's, whatever the buffers held, has derived it from a public key
that is not the point at infinity. -/
theorem begun_of_agrees
    (agrees : ∀ left other : UInt8,
      derivedKey (library keyHost) drawnServer (publicKeyOf (library keyHost) drawnNode)
          (.fill eccPubKeySize left) =
        derivedKey (library keyHost) drawnNode (publicKeyOf (library keyHost) drawnServer)
          (.fill eccPubKeySize other)) :
    publicMultiple (secretOf keyHost drawnNode) ≠ 0 := by
  intro vanishes
  have zero := agrees 0 0
  have one := agrees 1 0
  rw [derivedKey_left vanishes] at zero one
  exact absurd (keyOf_fill_injective (zero.trans one.symm)) (by decide)

/-- Two random numbers, refused ones included, give both ends a common key in every exchange exactly
if neither public key is the point at infinity and the multiples that the two ends take give one
key. Otherwise the key that one end keeps is what its memory held, or the two keys differ. -/
theorem library_exchange_iff (nodeHost host keyHost : ByteOrder) (gcm : Gcm)
    (unknown : findDevInfo pairing.server.devInfos devId.bytes = none)
    (keyless : pairing.node.hasEncryptionContextBeenEstablished = false) (idle : Idle pairing) :
    (∀ around : Surroundings, around.privateDHKey = drawnNode →
        around.env.privateDHKey = drawnServer →
        ∃ done,
          runFrom (pair nodeHost host gcm (library keyHost) devId) pairing (exchange around) =
            .ok done ∧
          CommonKey devId done ∧
          KeyOfMultiple keyHost (privateNumber (secretOf keyHost drawnNode) *
            publicMultiple (secretOf keyHost drawnServer)) done.node.pointerToKey) ↔
      publicMultiple (secretOf keyHost drawnNode) ≠ 0 ∧
        publicMultiple (secretOf keyHost drawnServer) ≠ 0 ∧
        ∃ key,
          KeyOfMultiple keyHost (privateNumber (secretOf keyHost drawnNode) *
            publicMultiple (secretOf keyHost drawnServer)) key ∧
          KeyOfMultiple keyHost (privateNumber (secretOf keyHost drawnServer) *
            publicMultiple (secretOf keyHost drawnNode)) key := by
  have ran := exchange_ran nodeHost host gcm (library keyHost) unknown keyless idle
  constructor
  · intro common
    have agrees : ∀ ofNode ofServer : UInt8,
        derivedKey (library keyHost) drawnServer (publicKeyOf (library keyHost) drawnNode)
            (.fill eccPubKeySize ofServer) =
          derivedKey (library keyHost) drawnNode (publicKeyOf (library keyHost) drawnServer)
            (.fill eccPubKeySize ofNode) := by
      intro ofNode ofServer
      obtain ⟨done, ended, commonKey, -⟩ :=
        common (drawnAround drawnNode drawnServer ofNode ofServer) rfl rfl
      obtain ⟨again, endedAgain, key, decided⟩ :=
        ran (drawnAround drawnNode drawnServer ofNode ofServer)
      obtain rfl := Except.ok.inj (ended.symm.trans endedAgain)
      exact (decided.mp commonKey).trans key
    have begunNode := begun_of_agrees fun ofServer ofNode => agrees ofNode ofServer
    have begunServer := begun_of_agrees fun ofNode ofServer => (agrees ofNode ofServer).symm
    refine ⟨begunNode, begunServer, _, derivedKey_library drawnNode begunServer (.fill eccPubKeySize 0), ?_⟩
    rw [← agrees 0 0]
    exact derivedKey_library drawnServer begunNode (.fill eccPubKeySize 0)
  · rintro ⟨begunNode, begunServer, key, ofNode, ofServer⟩ around rfl rfl
    obtain ⟨done, ended, derives, decided⟩ := ran around
    have keyNode := derivedKey_library around.privateDHKey begunServer around.nodeEnv.sharedDHKey
    have keyServer := derivedKey_library around.env.privateDHKey begunNode around.env.sharedDHKey
    rw [← derives] at keyNode
    refine ⟨done, ended, decided.mpr ?_, keyNode⟩
    exact (keyServer.unique ofServer).trans (ofNode.unique keyNode)

/-- For two numbers that the library takes the multiples are the same, so that only the point at
infinity is in the way. -/
theorem keys_of_taken (longNode : 81 ≤ (secretOf keyHost drawnNode).size)
    (longServer : 81 ≤ (secretOf keyHost drawnServer).size)
    (begunServer : publicMultiple (secretOf keyHost drawnServer) ≠ 0) :
    ∃ key,
      KeyOfMultiple keyHost (privateNumber (secretOf keyHost drawnNode) *
        publicMultiple (secretOf keyHost drawnServer)) key ∧
      KeyOfMultiple keyHost (privateNumber (secretOf keyHost drawnServer) *
        publicMultiple (secretOf keyHost drawnNode)) key := by
  have ofNode := derivedKey_library drawnNode begunServer (default : Block eccPubKeySize)
  refine ⟨_, ofNode, ?_⟩
  obtain ⟨multipleNode, numberNode⟩ := multiples_of_taken longNode
  obtain ⟨multipleServer, numberServer⟩ := multiples_of_taken longServer
  rw [numberNode, multipleServer] at ofNode
  rw [numberServer, multipleNode, Nat.mul_comm]
  exact ofNode

end Draws

/-- A new node draws 2^80 and a server that knows no device 2^80 + 1. -/
theorem library_exchange_begun :
    ∃ done,
      runFrom (pair .little .little exchangeGcm (library .little) default) newPairing
        (exchange sampleAround) = .ok done ∧
      CommonKey default done ∧
      KeyOfMultiple .little (privateNumber (secretOf .little sampleAround.privateDHKey) *
        publicMultiple (secretOf .little sampleAround.env.privateDHKey))
        done.node.pointerToKey := by
  have begunServer : publicMultiple (secretOf .little sampleAround.env.privateDHKey) ≠ 0 := by
    decide
  have unknown : findDevInfo newPairing.server.devInfos (default : Block devIdLen).bytes = none :=
    rfl
  have idle : Idle newPairing := rfl
  have longNode : 81 ≤ (secretOf .little sampleAround.privateDHKey).size := by decide
  have longServer : 81 ≤ (secretOf .little sampleAround.env.privateDHKey).size := by decide
  have keys := keys_of_taken longNode longServer begunServer
  exact (library_exchange_iff .little .little .little exchangeGcm unknown rfl idle).mpr
    ⟨by decide, begunServer, keys⟩ sampleAround rfl rfl

end RentMate.KeyExchange
