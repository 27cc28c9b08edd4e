import SecureChat.Common.StreamCipher

/-!
# Truncated messages

`left` and `mid` take what is there, so decryption goes on with a message that is shorter than its
initialization vector as with any other, and returns an empty text.
-/

namespace SecureChat

def QCA.DrawsAll (q : QCA) : Prop := ∀ arr : QByteArray, ∃ r, (q.randomArray arr.length r).1 = arr

namespace Security
variable {q : QCA} {keystream : QByteArray → QByteArray → Nat → Int8}

variable (q) in
def Encrypted (key bytes : ByteSeq) : Prop :=
  ∃ (data : ByteSeq) (c : Context q), c.self.m_aes = true ∧ ((encryptAES key data).exec c).1 = .ok bytes

def AcceptsOnlyEncrypted (c : Context q) (key bytes : ByteSeq) : Prop :=
  ((∃ data, ((decryptAES key bytes).exec c).1 = .ok data) → Encrypted q key bytes) ∧
    (¬ Encrypted q key bytes → ∃ e, ((decryptAES key bytes).exec c).1 = .error e)

/-- What follows the RSA block of the envelope is shorter than the session key in the block. -/
def Truncated (priv : q.PrivateKey) (envelope : ByteSeq) : Prop :=
  ∃ symkey, q.decrypt priv ((byteSeqToByteArray envelope).left (q.bitSize priv / 8)) = some symkey ∧
    ((byteSeqToByteArray envelope).mid (q.bitSize priv / 8)).length < symkey.length

def RejectsTruncated (c : Context q) (priv : q.PrivateKey) (envelope : ByteSeq) : Prop :=
  Truncated priv envelope → ∃ e, ((decryptRSA priv envelope).exec c).1 = .error e

/-! ## AES -/

theorem decryptAES_returns {c : Context q} (supported : c.self.m_aes = true) {key : ByteSeq}
    (nonempty : key ≠ []) (bytes : ByteSeq) : ∃ data, ((decryptAES key bytes).exec c).1 = .ok data := by
  have ended := exec_decryptAES supported (byteSeqToByteArray_ne_nil nonempty) (byteSeqToByteArray bytes)
  rw [byteArraytoByteSeq_byteSeqToByteArray, byteArraytoByteSeq_byteSeqToByteArray] at ended
  exact ⟨_, congrArg Prod.fst ended⟩

theorem encrypted_iff (cipher : q.StreamCipher keystream) (draws : q.DrawsAll) {key : ByteSeq}
    (nonempty : key ≠ []) (bytes : ByteSeq) : Encrypted q key bytes ↔ key.length ≤ bytes.length := by
  constructor
  · intro ⟨data, c, supported, encrypted⟩
    obtain ⟨out, returned, size, _⟩ := decryptAES_encryptAES cipher supported supported nonempty data
    rw [encrypted, Except.ok.injEq] at returned
    rw [returned, size]
    exact Nat.le_add_right ..
  · intro fits
    have size : ((byteSeqToByteArray bytes).take key.length).length = key.length := by
      simp [Nat.min_eq_left fits]
    obtain ⟨r, drawn⟩ := draws ((byteSeqToByteArray bytes).take key.length)
    rw [size] at drawn
    exact ⟨_, ⟨new true true true, r⟩, rfl, encryptAES_unmasked cipher rfl nonempty drawn⟩

/-! ## RSA -/

theorem decryptRSA_returns_truncated {c : Context q} (supported : Supported c) {priv : q.PrivateKey}
    (canDecrypt : q.canDecrypt priv = true) {envelope : ByteSeq} (truncated : Truncated priv envelope) :
    ∃ data, ((decryptRSA priv envelope).exec c).1 = .ok data := by
  obtain ⟨rsa, aes⟩ := supported
  obtain ⟨symkey, recovered, short⟩ := truncated
  have nonempty : byteArraytoByteSeq symkey ≠ [] := by
    rw [← List.length_pos_iff, length_byteArraytoByteSeq]
    omega
  obtain ⟨data, returned⟩ := decryptAES_returns aes nonempty
    (byteArraytoByteSeq ((byteSeqToByteArray envelope).mid (q.bitSize priv / 8)))
  refine ⟨data, ?_⟩
  simpa [decryptRSA, rsa, aes, canDecrypt, recovered] using returned

theorem acceptsOnlyEncrypted_iff (cipher : q.StreamCipher keystream) (draws : q.DrawsAll) {c : Context q}
    (supported : Supported c) {key : ByteSeq} (nonempty : key ≠ []) (bytes : ByteSeq) (priv : q.PrivateKey)
    (envelope : ByteSeq) : (AcceptsOnlyEncrypted c key bytes ↔ key.length ≤ bytes.length) ∧
      (RejectsTruncated c priv envelope ↔ ¬ (q.canDecrypt priv = true ∧ Truncated priv envelope)) := by
  constructor
  · rw [← encrypted_iff cipher draws nonempty bytes]
    constructor
    · intro accepts
      exact accepts.1 (decryptAES_returns supported.2 nonempty bytes)
    · exact fun encrypted => ⟨fun _ => encrypted, absurd encrypted⟩
  · constructor
    · intro rejects ⟨canDecrypt, truncated⟩
      obtain ⟨e, failed⟩ := rejects truncated
      obtain ⟨data, returned⟩ := decryptRSA_returns_truncated supported canDecrypt truncated
      rw [failed] at returned
      contradiction
    · intro whole truncated
      have refused : q.canDecrypt priv = false := by
        by_contra canDecrypt
        exact whole ⟨by simpa using canDecrypt, truncated⟩
      obtain ⟨rsa, aes⟩ := supported
      exact ⟨⟨lit "supplied key can not decrypt"⟩, by simp [decryptRSA, rsa, aes, refused]⟩

theorem taped_drawsAll (b : Nat) : (taped b).DrawsAll := fun arr => ⟨arr, readTape_length arr⟩

theorem acceptsOnlyEncrypted_iff_one_byte :
    (AcceptsOnlyEncrypted (taped.context 1024 []) [1] [2] ↔ 1 ≤ 1) ∧
      (RejectsTruncated (q := taped 1024) (taped.context 1024 []) () [] ↔ ¬ (true = true ∧
        Truncated (q := taped 1024) () [])) :=
  acceptsOnlyEncrypted_iff (taped_streamCipher 1024) (taped_drawsAll 1024) ⟨rfl, rfl⟩ (by decide) [2] () []

theorem accepts_truncated :
    ¬ ∀ (q : QCA) (keystream : QByteArray → QByteArray → Nat → Int8), q.StreamCipher keystream → q.DrawsAll →
      ∀ c : Context q, Supported c → ∀ key : ByteSeq, key ≠ [] → ∀ bytes, AcceptsOnlyEncrypted c key bytes := by
  intro claim
  have accepts := claim (taped 1024) repeated (taped_streamCipher 1024) (taped_drawsAll 1024)
    (taped.context 1024 []) ⟨rfl, rfl⟩ [1] (by decide) []
  have encrypted := accepts.1 ⟨[], by decide⟩
  rw [encrypted_iff (taped_streamCipher 1024) (taped_drawsAll 1024) (by decide)] at encrypted
  contradiction

end Security
end SecureChat
