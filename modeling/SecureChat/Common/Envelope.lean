import SecureChat.Common.Security

/-!
# The envelope of encryptRSA

`encryptRSA` writes the encrypted session key, the initialization vector and the encrypted data
one after the other. `decryptRSA` cuts the first part off at `bitSize() / 8` bytes, while an RSA
block takes as many bytes as are needed for all bits.
-/

namespace SecureChat

/-- Random arrays have the size asked for, and the cipher set up twice alike inverts itself. -/
structure QCA.Documented (q : QCA) : Prop where
  length_randomArray : ∀ size r, (q.randomArray size r).1.length = size
  process_process : ∀ symkey iv text c c',
    (q.process (q.process text (q.setup .encode symkey iv c)).1 (q.setup .decode symkey iv c')).1 = text

structure QCA.KeyPair (q : QCA) (b : Nat) (pub : q.PublicKey) (priv : q.PrivateKey) : Prop where
  canEncrypt : q.canEncrypt pub = true
  canDecrypt : q.canDecrypt priv = true
  bitSize : q.bitSize priv = b
  length_encrypt : ∀ text r, text.length ≤ q.maximumEncryptSize pub →
    (q.encrypt pub text r).1.length = (b + 7) / 8
  decrypt_encrypt : ∀ text r, text.length ≤ q.maximumEncryptSize pub →
    q.decrypt priv (q.encrypt pub text r).1 = some text
  decrypt_other_size : ∀ block, block.length ≠ (b + 7) / 8 → q.decrypt priv block = none

namespace Security
variable {q : QCA}

def Supported (c : Context q) : Prop :=
  c.self.m_rsa = true ∧ c.self.m_aes = true

/-! ## AES -/

section AES
variable {c : Context q} (supported : c.self.m_aes = true)
include supported

theorem exec_genAESKey (size : Nat) : (genAESKey size).exec c =
    (.ok (byteArraytoByteSeq (q.randomArray size c.random).1),
      ⟨c.self, (q.randomArray size c.random).2⟩) := by
  simp [genAESKey, supported]

theorem exec_encryptAES {symkey : QByteArray} (nonempty : symkey ≠ []) (data : ByteSeq) :
    ((encryptAES (byteArraytoByteSeq symkey) data).exec c) =
      let iv := q.randomArray symkey.length c.random
      let out := q.process (byteSeqToByteArray data) (q.setup .encode symkey iv.1 c.self.cipher)
      (.ok (byteArraytoByteSeq (out.1.prepend iv.1)), ⟨{ c.self with cipher := out.2 }, iv.2⟩) := by
  simp [encryptAES, processAES, supported, nonempty]

theorem exec_decryptAES {symkey : QByteArray} (nonempty : symkey ≠ []) (arr : QByteArray) :
    ((decryptAES (byteArraytoByteSeq symkey) (byteArraytoByteSeq arr)).exec c) =
      let out := q.process (arr.mid symkey.length)
        (q.setup .decode symkey (arr.left symkey.length) c.self.cipher)
      (.ok (byteArraytoByteSeq out.1), { c with self.cipher := out.2 }) := by
  simp [decryptAES, processAES, supported, nonempty]

end AES

/-! ## RSA -/

theorem decryptAES_prepend (documented : q.Documented) {c : Context q} (supported : c.self.m_aes = true)
    {symkey iv : QByteArray} (nonempty : symkey ≠ []) (size : iv.length = symkey.length) (data : ByteSeq)
    (cipher : q.Cipher) :
    ((decryptAES (byteArraytoByteSeq symkey) (byteArraytoByteSeq
      ((q.process (byteSeqToByteArray data) (q.setup .encode symkey iv cipher)).1.prepend iv))).exec c).1 =
        .ok data := by
  rw [exec_decryptAES supported nonempty]
  simp [QByteArray.mid_prepend _ size, QByteArray.left_prepend _ size, documented.process_process]

section
variable {b : Nat} {pub : q.PublicKey} {priv : q.PrivateKey} (pair : q.KeyPair b pub priv)
include pair

theorem encryptRSA_returns (documented : q.Documented) (encrypts : 1 ≤ q.maximumEncryptSize pub)
    (data : ByteSeq) {c : Context q} (supported : Supported c) :
    ∃ symkey iv r cipher, symkey.length = q.maximumEncryptSize pub ∧ iv.length = symkey.length ∧
      ((encryptRSA pub data).exec c).1 = .ok (byteArraytoByteSeq ((q.encrypt pub symkey r).1 ++
        (q.process (byteSeqToByteArray data) (q.setup .encode symkey iv cipher)).1.prepend iv)) := by
  obtain ⟨rsa, aes⟩ := supported
  cases drawn : q.randomArray (q.maximumEncryptSize pub) c.random with
  | mk symkey r =>
      have size := documented.length_randomArray (q.maximumEncryptSize pub) c.random
      rw [drawn] at size
      have nonempty : symkey ≠ [] := by
        intro empty
        rw [empty, List.length_nil] at size
        omega
      have keyed := exec_genAESKey aes (q.maximumEncryptSize pub)
      rw [drawn] at keyed
      refine ⟨symkey, (q.randomArray symkey.length r).1, (q.randomArray symkey.length r).2, c.self.cipher,
        size, documented.length_randomArray _ _, ?_⟩
      have ciphered := exec_encryptAES (c := ⟨c.self, r⟩) aes nonempty data
      simp only [encryptRSA, exec_bind, exec_get, rsa, aes, Bool.and_self, not_true_eq_false, ↓reduceIte,
        pair.canEncrypt, keyed, ciphered, exec_encrypt, byteSeqToByteArray_byteArraytoByteSeq, exec_pure]
      rfl

theorem decryptRSA_returns {c : Context q} (supported : Supported c) (aligned : b % 8 = 0)
    {symkey : QByteArray} (fits : symkey.length ≤ q.maximumEncryptSize pub) (r : q.Random)
    (rest : QByteArray) :
    ((decryptRSA priv (byteArraytoByteSeq ((q.encrypt pub symkey r).1 ++ rest))).exec c) =
      (decryptAES (byteArraytoByteSeq symkey) (byteArraytoByteSeq rest)).exec c := by
  obtain ⟨rsa, aes⟩ := supported
  have size : (q.encrypt pub symkey r).1.length = b / 8 := by
    rw [pair.length_encrypt symkey r fits]
    omega
  have cut : QByteArray.left ((q.encrypt pub symkey r).1 ++ rest) (b / 8) = (q.encrypt pub symkey r).1 :=
    QByteArray.left_prepend rest size
  have body : QByteArray.mid ((q.encrypt pub symkey r).1 ++ rest) (b / 8) = rest :=
    QByteArray.mid_prepend rest size
  simp [decryptRSA, rsa, aes, pair.canDecrypt, pair.bitSize, cut, body, pair.decrypt_encrypt symkey r fits]

theorem decryptRSA_fails {c : Context q} (supported : Supported c) (misaligned : b % 8 ≠ 0) (data : ByteSeq) :
    ((decryptRSA priv data).exec c).1 = .error ⟨lit "decryption failed"⟩ := by
  obtain ⟨rsa, aes⟩ := supported
  -- a block takes one byte more than the cut leaves of it
  have short : q.decrypt priv ((byteSeqToByteArray data).left (b / 8)) = none := by
    refine pair.decrypt_other_size _ ?_
    have : ((byteSeqToByteArray data).left (b / 8)).length ≤ b / 8 := List.length_take_le ..
    omega
  simp [decryptRSA, rsa, aes, pair.canDecrypt, pair.bitSize, short]

end

def RoundTrip (pub : q.PublicKey) (priv : q.PrivateKey) (data : ByteSeq) (c c' : Context q) : Prop :=
  ∃ envelope, ((encryptRSA pub data).exec c).1 = .ok envelope ∧
    ((decryptRSA priv envelope).exec c').1 = .ok data

theorem decryptRSA_encryptRSA_iff (documented : q.Documented) {b : Nat} {pub : q.PublicKey}
    {priv : q.PrivateKey} (pair : q.KeyPair b pub priv) (encrypts : 1 ≤ q.maximumEncryptSize pub)
    (data : ByteSeq) {c c' : Context q} (supported : Supported c) (supported' : Supported c') :
    RoundTrip pub priv data c c' ↔ b % 8 = 0 := by
  obtain ⟨symkey, iv, r, cipher, size, sizes, returned⟩ :=
    encryptRSA_returns pair documented encrypts data supported
  constructor
  · intro roundTrip
    obtain ⟨envelope, _, decrypted⟩ := roundTrip
    by_contra misaligned
    rw [decryptRSA_fails pair supported' misaligned] at decrypted
    contradiction
  · intro aligned
    refine ⟨_, returned, ?_⟩
    have nonempty : symkey ≠ [] := by
      intro empty
      rw [empty, List.length_nil] at size
      omega
    rw [decryptRSA_returns pair supported' aligned (Nat.le_of_eq size)]
    exact decryptAES_prepend documented supported'.2 nonempty sizes data cipher

/-! ## An instance -/

/-- The bytes of an RSA block are the text, a one and zeros, and the cipher adds the bytes of the
key and of the initialization vector over and over. -/
def padding (b : Nat) : QCA where
  Random := Unit
  randomArray size r := (List.replicate size 7, r)
  Cipher := QByteArray × QByteArray
  newCipher := ([], [])
  setup _ symkey iv _ := (symkey, iv)
  process text c :=
    (text.mapIdx fun i x => x ^^^ (c.1.getD (i % c.1.length) 0 ^^^ c.2.getD (i % c.2.length) 0), c)
  PublicKey := Unit
  canEncrypt _ := true
  maximumEncryptSize _ := (b + 7) / 8 - 42
  encrypt _ text r := (text ++ 1 :: List.replicate ((b + 7) / 8 - text.length - 1) 0, r)
  PrivateKey := Unit
  canDecrypt _ := true
  bitSize _ := b
  decrypt _ block :=
    if block.length = (b + 7) / 8 then some ((block.reverse.dropWhile (· = 0)).tail.reverse) else none

theorem padding_documented (b : Nat) : (padding b).Documented where
  length_randomArray size r := List.length_replicate
  process_process symkey iv text c c' := by
    simp only [padding, List.mapIdx_mapIdx]
    apply List.ext_getElem (by simp)
    intro i _ _
    simp only [List.getElem_mapIdx, Function.comp_apply, Int8.xor_assoc, Int8.xor_self, Int8.xor_zero]

theorem padding_keyPair {b : Nat} (positive : 0 < b) : (padding b).KeyPair b () () where
  canEncrypt := rfl
  canDecrypt := rfl
  bitSize := rfl
  length_encrypt text r fits := by
    simp only [padding] at fits ⊢
    simp
    omega
  decrypt_encrypt text r fits := by
    simp only [padding] at fits ⊢
    rw [if_pos (by simp; omega), List.reverse_append, List.reverse_cons, List.reverse_replicate,
      List.append_assoc, List.dropWhile_append_of_pos (by simp)]
    simp
  decrypt_other_size block other := if_neg other

def padding.context (b : Nat) : Context (padding b) := ⟨new true true true, ()⟩

theorem decryptRSA_encryptRSA_iff_1024 :
    RoundTrip (q := padding 1024) () () [] (padding.context 1024) (padding.context 1024) ↔ 1024 % 8 = 0 :=
  decryptRSA_encryptRSA_iff (padding_documented 1024) (padding_keyPair (by decide)) (by decide) []
    ⟨rfl, rfl⟩ ⟨rfl, rfl⟩

theorem decryptRSA_rejects_envelope :
    ¬ ∀ (q : QCA) (b : Nat) (pub : q.PublicKey) (priv : q.PrivateKey), q.Documented → q.KeyPair b pub priv →
      1 ≤ q.maximumEncryptSize pub → ∀ (data : ByteSeq) (c c' : Context q), Supported c → Supported c' →
      RoundTrip pub priv data c c' := by
  intro claim
  obtain ⟨envelope, _, decrypted⟩ := claim (padding 1025) 1025 () () (padding_documented 1025)
    (padding_keyPair (by decide)) (by decide) [] (padding.context 1025) (padding.context 1025)
    ⟨rfl, rfl⟩ ⟨rfl, rfl⟩
  rw [decryptRSA_fails (padding_keyPair (by decide)) ⟨rfl, rfl⟩ (by decide)] at decrypted
  contradiction

end Security
end SecureChat
