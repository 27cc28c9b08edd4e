import SecureChat.Common.Bytes

/-!
# Security

AES and RSA encryption of byte sequences. The cryptography is done by QCA, which is a parameter
here: its random arrays, one cipher object with its state, and RSA keys. A method works on one
`Security` object, throws a `SecurityException`, and keeps what it did to the cipher and to the
random number generator also when it throws.
-/

namespace SecureChat

inductive Direction where
  | encode
  | decode
  deriving DecidableEq

/-- What is used of QCA. Arrays, symmetric keys and initialization vectors are byte arrays. -/
structure QCA where
  Random : Type
  randomArray : Nat → Random → QByteArray × Random
  Cipher : Type
  newCipher : Cipher
  setup : Direction → QByteArray → QByteArray → Cipher → Cipher
  process : QByteArray → Cipher → QByteArray × Cipher
  PublicKey : Type
  canEncrypt : PublicKey → Bool
  maximumEncryptSize : PublicKey → Nat
  encrypt : PublicKey → QByteArray → Random → QByteArray × Random
  PrivateKey : Type
  canDecrypt : PrivateKey → Bool
  bitSize : PrivateKey → Nat
  decrypt : PrivateKey → QByteArray → Option QByteArray

structure SecurityException where
  m_msg : StdString
  deriving DecidableEq

structure Security (q : QCA) where
  m_rsa : Bool
  m_aes : Bool
  cipher : q.Cipher

namespace Security
variable {q : QCA}

def new (pkey rsa aes256_ofb : Bool) : Security q :=
  ⟨pkey && rsa, aes256_ofb, q.newCipher⟩

structure Context (q : QCA) where
  self : Security q
  random : q.Random

abbrev Method (q : QCA) := ExceptT SecurityException (StateM (Context q))

def Method.exec {α : Type} (m : Method q α) (c : Context q) : Except SecurityException α × Context q :=
  m.run.run c

namespace Method

def setup (dir : Direction) (symkey iv : QByteArray) : Method q Unit :=
  modify fun c => { c with self.cipher := q.setup dir symkey iv c.self.cipher }

def process (text : QByteArray) : Method q QByteArray :=
  modifyGet fun c =>
    let (out, cipher) := q.process text c.self.cipher
    (out, { c with self.cipher := cipher })

/-- The array of a `SymmetricKey(size)` or an `InitializationVector(size)`. -/
def randomArray (size : Nat) : Method q QByteArray :=
  modifyGet fun c =>
    let (out, random) := q.randomArray size c.random
    (out, { c with random })

def encrypt (key : q.PublicKey) (text : QByteArray) : Method q QByteArray :=
  modifyGet fun c =>
    let (out, random) := q.encrypt key text c.random
    (out, { c with random })

end Method

open Method

def processAES (key data : ByteSeq) (dir : Direction) : Method q ByteSeq := do
  if ¬ (← get).self.m_aes then
    throw ⟨lit "AES not supported"⟩
  let symkey := byteSeqToByteArray key
  if symkey.length = 0 then
    throw ⟨lit "empty key supplied"⟩
  match dir with
  | .encode =>
      let secdata := byteSeqToByteArray data
      let iv ← randomArray symkey.length
      setup dir symkey iv
      let outdata ← process secdata
      return byteArraytoByteSeq (outdata.prepend iv)
  | .decode =>
      let data_ := byteSeqToByteArray data
      let secdata := data_.mid symkey.length
      let iv := data_.left symkey.length
      setup dir symkey iv
      let outdata ← process secdata
      return byteArraytoByteSeq outdata

def encryptAES (key data : ByteSeq) : Method q ByteSeq :=
  processAES key data .encode

def decryptAES (key data : ByteSeq) : Method q ByteSeq :=
  processAES key data .decode

def genAESKey (size : Nat) : Method q ByteSeq := do
  if ¬ (← get).self.m_aes then
    throw ⟨lit "AES not supported"⟩
  return byteArraytoByteSeq (← randomArray size)

def encryptRSA (key : q.PublicKey) (data : ByteSeq) : Method q ByteSeq := do
  let self := (← get).self
  if ¬ (self.m_rsa && self.m_aes) then
    throw ⟨lit "RSA not supported"⟩
  if ¬ q.canEncrypt key then
    throw ⟨lit "supplied key can not encrypt"⟩
  let symkey ← genAESKey (q.maximumEncryptSize key)
  let encdata ← encryptAES symkey data
  let secdata := byteSeqToByteArray symkey
  let outdata ← encrypt key secdata
  let outdata := outdata ++ byteSeqToByteArray encdata
  return bStringToByteSeq outdata outdata.length

def decryptRSA (key : q.PrivateKey) (data : ByteSeq) : Method q ByteSeq := do
  let self := (← get).self
  if ¬ (self.m_rsa && self.m_aes) then
    throw ⟨lit "RSA not supported"⟩
  if ¬ q.canDecrypt key then
    throw ⟨lit "supplied key can not decrypt"⟩
  let encdata := byteSeqToByteArray data
  let secdata := encdata.left (q.bitSize key / 8)
  match q.decrypt key secdata with
  | none => throw ⟨lit "decryption failed"⟩
  | some symkey =>
      decryptAES (byteArraytoByteSeq symkey) (byteArraytoByteSeq (encdata.mid (q.bitSize key / 8)))

/-! ## What each method does -/

section exec
variable {α β : Type} (c : Context q)

@[simp] theorem exec_pure (value : α) : (pure value : Method q α).exec c = (.ok value, c) := rfl

@[simp] theorem exec_throw (e : SecurityException) : (throw e : Method q α).exec c = (.error e, c) := rfl

@[simp] theorem exec_get : (get : Method q (Context q)).exec c = (.ok c, c) := rfl

@[simp] theorem exec_bind (m : Method q α) (f : α → Method q β) : (m >>= f).exec c = match m.exec c with
    | (.ok value, after) => (f value).exec after
    | (.error e, after) => (.error e, after) := by
  change (ExceptT.bindCont f (m.exec c).1).run (m.exec c).2 = _
  rcases m.exec c with ⟨_ | _, after⟩ <;> rfl

@[simp] theorem exec_map (f : α → β) (m : Method q α) : (f <$> m).exec c = match m.exec c with
    | (.ok value, after) => (.ok (f value), after)
    | (.error e, after) => (.error e, after) :=
  exec_bind c m fun value => pure (f value)

@[simp] theorem exec_setup (dir : Direction) (symkey iv : QByteArray) :
    (setup dir symkey iv : Method q Unit).exec c =
      (.ok (), { c with self.cipher := q.setup dir symkey iv c.self.cipher }) := rfl

@[simp] theorem exec_process (text : QByteArray) : (process text : Method q QByteArray).exec c =
    (.ok (q.process text c.self.cipher).1,
      { c with self.cipher := (q.process text c.self.cipher).2 }) := rfl

@[simp] theorem exec_randomArray (size : Nat) : (randomArray size : Method q QByteArray).exec c =
    (.ok (q.randomArray size c.random).1, { c with random := (q.randomArray size c.random).2 }) := rfl

@[simp] theorem exec_encrypt (key : q.PublicKey) (text : QByteArray) :
    (encrypt key text : Method q QByteArray).exec c =
      (.ok (q.encrypt key text c.random).1, { c with random := (q.encrypt key text c.random).2 }) := rfl

end exec

end Security
end SecureChat
