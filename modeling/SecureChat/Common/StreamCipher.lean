import SecureChat.Common.Envelope
import SecureChat.Library.Machine

/-!
# AES as a stream cipher

In output feedback mode the cipher XORs a text with a keystream that the key and the initialization
vector determine. So encryption and decryption invert each other both ways, wherever in a sequence
of calls they are made. Decryption takes what is shorter than the initialization vector too.
-/

namespace SecureChat
open Library

def masked (stream : Nat → Int8) (text : QByteArray) : QByteArray :=
  text.mapIdx fun i x => x ^^^ stream i

@[simp] theorem length_masked (stream : Nat → Int8) (text : QByteArray) :
    (masked stream text).length = text.length := List.length_mapIdx

@[simp] theorem masked_masked (stream : Nat → Int8) (text : QByteArray) :
    masked stream (masked stream text) = text := by
  unfold masked
  rw [List.mapIdx_mapIdx]
  apply List.ext_getElem (by simp)
  intro i _ _
  simp only [List.getElem_mapIdx, Function.comp_apply, Int8.xor_assoc, Int8.xor_self, Int8.xor_zero]

/-- Random arrays have the size asked for, and whatever the cipher was used for before, it XORs the
text with the keystream of the key and of an initialization vector of the key's size. -/
structure QCA.StreamCipher (q : QCA) (keystream : QByteArray → QByteArray → Nat → Int8) : Prop where
  length_randomArray : ∀ size r, (q.randomArray size r).1.length = size
  process_setup : ∀ dir symkey iv text c, iv.length = symkey.length →
    (q.process text (q.setup dir symkey iv c)).1 = masked (keystream symkey iv) text

namespace Security
variable {q : QCA} {keystream : QByteArray → QByteArray → Nat → Int8}

def nextIV (c : Context q) (key : ByteSeq) : QByteArray := (q.randomArray key.length c.random).1

theorem byteSeqToByteArray_ne_nil {key : ByteSeq} (nonempty : key ≠ []) : byteSeqToByteArray key ≠ [] := by
  rw [← List.length_pos_iff, length_byteSeqToByteArray]
  exact List.length_pos_iff.mpr nonempty

section
variable (cipher : q.StreamCipher keystream) {c : Context q} (supported : c.self.m_aes = true)
include cipher supported

theorem encryptAES_masks {key : ByteSeq} (nonempty : key ≠ []) (data : ByteSeq) :
    ((encryptAES key data).exec c).1 = .ok (byteArraytoByteSeq
      (nextIV c key ++ masked (keystream (byteSeqToByteArray key) (nextIV c key)) (byteSeqToByteArray data))) := by
  have ended := exec_encryptAES supported (byteSeqToByteArray_ne_nil nonempty) data
  rw [byteArraytoByteSeq_byteSeqToByteArray] at ended
  rw [ended]
  dsimp only
  rw [cipher.process_setup _ _ _ _ _ (cipher.length_randomArray ..), length_byteSeqToByteArray]
  rfl

theorem decryptAES_masks {key bytes : ByteSeq} (nonempty : key ≠ []) (fits : key.length ≤ bytes.length) :
    let iv := (byteSeqToByteArray bytes).take key.length
    ((decryptAES key bytes).exec c).1 = .ok (byteArraytoByteSeq
      (masked (keystream (byteSeqToByteArray key) iv) ((byteSeqToByteArray bytes).drop key.length))) := by
  have ended := exec_decryptAES supported (byteSeqToByteArray_ne_nil nonempty) (byteSeqToByteArray bytes)
  rw [byteArraytoByteSeq_byteSeqToByteArray, byteArraytoByteSeq_byteSeqToByteArray] at ended
  rw [ended]
  dsimp only
  rw [QByteArray.left, QByteArray.mid, length_byteSeqToByteArray,
    cipher.process_setup _ _ _ _ _ (by simp [Nat.min_eq_left fits])]

theorem encryptAES_unmasked {key bytes : ByteSeq} (nonempty : key ≠ [])
    (same : nextIV c key = (byteSeqToByteArray bytes).take key.length) :
    ((encryptAES key (byteArraytoByteSeq (masked
      (keystream (byteSeqToByteArray key) ((byteSeqToByteArray bytes).take key.length))
      ((byteSeqToByteArray bytes).drop key.length)))).exec c).1 = .ok bytes := by
  rw [encryptAES_masks cipher supported nonempty, same]
  simp

theorem decryptAES_encryptAES {c' : Context q} (supported' : c'.self.m_aes = true) {key : ByteSeq}
    (nonempty : key ≠ []) (data : ByteSeq) : ∃ bytes, ((encryptAES key data).exec c).1 = .ok bytes ∧
      bytes.length = key.length + data.length ∧ ((decryptAES key bytes).exec c').1 = .ok data := by
  have drawn : (nextIV c key).length = key.length := cipher.length_randomArray ..
  refine ⟨_, encryptAES_masks cipher supported nonempty data, by simp [drawn], ?_⟩
  rw [decryptAES_masks cipher supported' nonempty (by simp [drawn])]
  simp [List.take_left' drawn, List.drop_left' drawn]

end

/-! ## Sequences of calls -/

inductive AESCall where
  | encryptAES (key data : ByteSeq)
  | decryptAES (key data : ByteSeq)

namespace AESCall

def method : AESCall → Method q ByteSeq
  | .encryptAES key data => Security.encryptAES key data
  | .decryptAES key data => Security.decryptAES key data

def step (call : AESCall) (c : Context q) : Except SecurityException ByteSeq × Context q := call.method.exec c

end AESCall

theorem processAES_supports (key data : ByteSeq) (dir : Direction) (c : Context q) :
    ((processAES key data dir).exec c).2.self.m_aes = c.self.m_aes := by
  unfold processAES
  by_cases supported : c.self.m_aes = true
  · by_cases empty : key = []
    · simp [supported, empty]
    · cases dir <;> simp [supported, empty]
  · simp [supported]

theorem supported_after {c : Context q} (supported : c.self.m_aes = true) (calls : List AESCall) :
    (final AESCall.step c calls).self.m_aes = true := by
  refine final_rule AESCall.step (fun now => now.self.m_aes = true) supported (fun now call supported => ?_) calls
  cases call with
  | encryptAES key data => exact (processAES_supports key data .encode now).trans supported
  | decryptAES key data => exact (processAES_supports key data .decode now).trans supported

/-- On one object, after any calls: what is encrypted is longer by the key's length and is decrypted
to the data at any later point, and what is decrypted of at least the key's length is encrypted to
itself at any later point where its first bytes are drawn as the initialization vector. -/
theorem invert_each_other (cipher : q.StreamCipher keystream) {c : Context q} (supported : c.self.m_aes = true)
    (calls more : List AESCall) {key : ByteSeq} (nonempty : key ≠ []) :
    let now := final AESCall.step c calls
    (∀ data, ∃ bytes, ((encryptAES key data).exec now).1 = .ok bytes ∧
      bytes.length = key.length + data.length ∧
      ((decryptAES key bytes).exec (final AESCall.step ((encryptAES key data).exec now).2 more)).1 = .ok data) ∧
    ∀ bytes : ByteSeq, key.length ≤ bytes.length →
      ∃ data, ((decryptAES key bytes).exec now).1 = .ok data ∧
        let later := final AESCall.step ((decryptAES key bytes).exec now).2 more
        (nextIV later key = (byteSeqToByteArray bytes).take key.length →
          ((encryptAES key data).exec later).1 = .ok bytes) := by
  intro now
  have now_supported := supported_after supported calls
  refine ⟨fun data => ?_, fun bytes fits => ?_⟩
  · have encrypted : ((encryptAES key data).exec now).2.self.m_aes = true :=
      (processAES_supports key data .encode now).trans now_supported
    exact decryptAES_encryptAES cipher now_supported (supported_after encrypted more) nonempty data
  · have decrypted : ((decryptAES key bytes).exec now).2.self.m_aes = true :=
      (processAES_supports key bytes .decode now).trans now_supported
    refine ⟨_, decryptAES_masks cipher now_supported nonempty fits, fun same => ?_⟩
    exact encryptAES_unmasked cipher (supported_after decrypted more) nonempty same

/-! ## An instance -/

def readTape (size : Nat) (tape : QByteArray) : QByteArray := (tape ++ List.replicate size 0).take size

theorem length_readTape (size : Nat) (tape : QByteArray) : (readTape size tape).length = size := by
  simp [readTape]

theorem readTape_length (tape : QByteArray) : readTape tape.length tape = tape := List.take_left

/-- As `padding`, with random arrays that are read off a tape. -/
def taped (b : Nat) : QCA where
  Random := QByteArray
  randomArray size r := (readTape size r, r)
  Cipher := (padding b).Cipher
  newCipher := (padding b).newCipher
  setup := (padding b).setup
  process := (padding b).process
  PublicKey := Unit
  canEncrypt := (padding b).canEncrypt
  maximumEncryptSize := (padding b).maximumEncryptSize
  encrypt key text r := (((padding b).encrypt key text ()).1, r)
  PrivateKey := Unit
  canDecrypt := (padding b).canDecrypt
  bitSize := (padding b).bitSize
  decrypt := (padding b).decrypt

def repeated (symkey iv : QByteArray) (i : Nat) : Int8 :=
  symkey.getD (i % symkey.length) 0 ^^^ iv.getD (i % iv.length) 0

theorem taped_streamCipher (b : Nat) : (taped b).StreamCipher repeated where
  length_randomArray size r := length_readTape size r
  process_setup _ _ _ _ _ _ := rfl

def taped.context (b : Nat) (tape : QByteArray) : Context (taped b) := ⟨new true true true, tape⟩

theorem invert_each_other_taped :
    let now := final AESCall.step (taped.context 1024 [5, 6, 7]) [.encryptAES [1] [2, 3], .decryptAES [4] [8]]
    ∃ data, ((decryptAES [1, 2] [5, 6, 9]).exec now).1 = .ok data ∧
      ((encryptAES [1, 2] data).exec ((decryptAES [1, 2] [5, 6, 9]).exec now).2).1 = .ok [5, 6, 9] := by
  intro now
  have nonempty : ([1, 2] : ByteSeq) ≠ [] := by decide
  have inverts := invert_each_other (taped_streamCipher 1024) (c := taped.context 1024 [5, 6, 7]) rfl
    [.encryptAES [1] [2, 3], .decryptAES [4] [8]] [] nonempty
  obtain ⟨data, decrypted, encrypts⟩ := inverts.2 [5, 6, 9] (by decide)
  exact ⟨data, decrypted, encrypts (by decide)⟩

end Security
end SecureChat
