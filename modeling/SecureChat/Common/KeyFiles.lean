import SecureChat.Common.Security
import SecureChat.Library.Machine

/-!
# Keys in files

Most methods of `Security` take a key as a PEM text or as the name of a PEM file. QCA makes the
texts and reads them, and it writes and reads the files; a key that could not be read is a null
key. Strings go to QCA as Qt converts them: one char for each code point up to 255.
-/

namespace SecureChat
open Library

/-! ## Qt strings -/

/-- UTF-16 code units. -/
abbrev QString := List UInt16

namespace QString

def fromStdString (s : StdString) : QString := s.map fun c => c.toUInt8.toUInt16

/-- `QString(const char*)`, which ends at the first NUL. -/
def fromAscii (chars : StdString) : QString := fromStdString (chars.takeWhile (· ≠ 0))

/-- What is not Latin-1 becomes a question mark. -/
def toStdString (s : QString) : StdString := s.map fun unit => if unit < 256 then unit.toUInt8.toInt8 else 63

theorem fromStdString_injective : Function.Injective fromStdString := by
  refine List.map_injective_iff.mpr fun c d same => ?_
  have bits : c.toUInt8 = d.toUInt8 := by
    rw [← UInt8.toUInt8_toUInt16 c.toUInt8, same, UInt8.toUInt8_toUInt16]
  exact congrArg UInt8.toInt8 bits

end QString

/-- `SecureArray(const char*)`, which ends at the first NUL. -/
def SecureArray (chars : StdString) : QByteArray := chars.takeWhile (· ≠ 0)

def getBinaryString (bytes : ByteSeq) : StdString :=
  bytes.foldl (fun ret byte => ret ++ [byte.toInt8]) []

/-! ## QCA -/

inductive ConvertResult where
  | ConvertGood | ErrorDecode | ErrorPassphrase | ErrorFile
  deriving DecidableEq

/-- What is used of keys beside encryption: signatures and the PEM format. -/
structure QCA.Keys (q : QCA) where
  createRSA : Int → q.Random → q.PrivateKey × q.Random
  toPublicKey : q.PrivateKey → q.PublicKey
  canSign : q.PrivateKey → Bool
  signMessage : q.PrivateKey → QByteArray → QByteArray
  canVerify : q.PublicKey → Bool
  verifyMessage : q.PublicKey → QByteArray → QByteArray → Bool
  nullPrivateKey : q.PrivateKey
  nullPublicKey : q.PublicKey
  privateToPEM : q.PrivateKey → QByteArray → q.Random → QString × q.Random
  privateFromPEM : QString → QByteArray → q.PrivateKey × ConvertResult
  publicToPEM : q.PublicKey → QString
  publicFromPEM : QString → q.PublicKey × ConvertResult

/-- The files that can be read, and the names that can be written to. -/
structure Disk where
  content : QString → Option QString
  writable : QString → Bool

namespace Security

structure Desk (q : QCA) where
  context : Context q
  disk : Disk

abbrev FileMethod (q : QCA) := ExceptT SecurityException (StateM (Desk q))

variable {q : QCA}

namespace FileMethod

def exec {α : Type} (m : FileMethod q α) (d : Desk q) : Except SecurityException α × Desk q :=
  m.run.run d

/-- What needs no file. -/
def method {α : Type} (m : Method q α) : FileMethod q α :=
  ExceptT.mk fun d => ((m.exec d.context).1, { d with context := (m.exec d.context).2 })

variable (k : q.Keys)

def createRSA (bits : Int) : FileMethod q q.PrivateKey :=
  modifyGet fun d =>
    let (key, random) := k.createRSA bits d.context.random
    (key, { d with context.random := random })

def privateToPEM (key : q.PrivateKey) (passphrase : QByteArray) : FileMethod q QString :=
  modifyGet fun d =>
    let (pem, random) := k.privateToPEM key passphrase d.context.random
    (pem, { d with context.random := random })

def stringToFile (fileName content : QString) : FileMethod q Bool :=
  modifyGet fun d =>
    if d.disk.writable fileName then
      (true, { d with disk.content := Function.update d.disk.content fileName (some content) })
    else (false, d)

def privateToPEMFile (key : q.PrivateKey) (fileName : QString) (passphrase : QByteArray) : FileMethod q Bool := do
  stringToFile fileName (← privateToPEM k key passphrase)

def publicToPEMFile (key : q.PublicKey) (fileName : QString) : FileMethod q Bool :=
  stringToFile fileName (k.publicToPEM key)

def privateFromPEMFile (fileName : QString) (passphrase : QByteArray) :
    FileMethod q (q.PrivateKey × ConvertResult) := do
  match (← get).disk.content fileName with
  | none => return (k.nullPrivateKey, .ErrorFile)
  | some pem => return k.privateFromPEM pem passphrase

def publicFromPEMFile (fileName : QString) : FileMethod q (q.PublicKey × ConvertResult) := do
  match (← get).disk.content fileName with
  | none => return (k.nullPublicKey, .ErrorFile)
  | some pem => return k.publicFromPEM pem

end FileMethod

open FileMethod

section
variable (k : q.Keys)

/-! ## Signatures -/

def signRSA (key : q.PrivateKey) (data : ByteSeq) : Method q ByteSeq := do
  if ¬ (← get).self.m_rsa then
    throw ⟨lit "RSA not supported"⟩
  if ¬ k.canSign key then
    throw ⟨lit "supplied key can not sign"⟩
  let secdata := byteSeqToByteArray data
  let signature := k.signMessage key secdata
  return bStringToByteSeq signature signature.length

def verifyRSA (key : q.PublicKey) (data signature : ByteSeq) : Method q Bool := do
  if ¬ (← get).self.m_rsa then
    throw ⟨lit "RSA not supported"⟩
  if ¬ k.canVerify key then
    throw ⟨lit "supplied key can not verify"⟩
  let secdata := byteSeqToByteArray data
  let qsignature := byteSeqToByteArray signature
  return k.verifyMessage key secdata qsignature

/-! ## Where a key comes from -/

/-- The arguments that an overload takes for a public key. -/
inductive PublicSource where
  | pubkeyfile (file : QString)
  | pubkey (pubkey : ByteSeq)

/-- The arguments that an overload takes for a private key. -/
inductive PrivateSource where
  | privkeyfile (file : QString)
  | passphrase (file passphrase : QString)
  | privkey (privkey : ByteSeq)

/-- The overloads ignore what went wrong and go on with the null key. -/
def publicKey : PublicSource → FileMethod q q.PublicKey
  | .pubkeyfile file => return (← publicFromPEMFile k file).1
  | .pubkey pubkey => return (k.publicFromPEM (QString.fromStdString (getBinaryString pubkey))).1

def privateKey : PrivateSource → FileMethod q q.PrivateKey
  | .privkeyfile file => return (← privateFromPEMFile k file []).1
  | .passphrase file passphrase => return (← privateFromPEMFile k file (SecureArray passphrase.toStdString)).1
  | .privkey privkey => return (k.privateFromPEM (QString.fromStdString (getBinaryString privkey)) []).1

def encryptRSAWith (source : PublicSource) (data : ByteSeq) : FileMethod q ByteSeq := do
  let key ← publicKey k source
  method (encryptRSA key data)

def decryptRSAWith (source : PrivateSource) (data : ByteSeq) : FileMethod q ByteSeq := do
  let key ← privateKey k source
  method (decryptRSA key data)

def signRSAWith (source : PrivateSource) (data : ByteSeq) : FileMethod q ByteSeq := do
  let key ← privateKey k source
  method (signRSA k key data)

def verifyRSAWith (source : PublicSource) (data signature : ByteSeq) : FileMethod q Bool := do
  let key ← publicKey k source
  method (verifyRSA k key data signature)

/-! ## Keys -/

/-- The bytes of a PEM text. -/
def pemBytes (data : QString) : ByteSeq := bStringToByteSeq data.toStdString data.length

def supportedRSA : FileMethod q Unit := do
  if ¬ (← get).context.self.m_rsa then
    throw ⟨lit "RSA not supported"⟩

def genRSAKey (bits : Int) : FileMethod q (ByteSeq × ByteSeq) := do
  supportedRSA
  let key ← createRSA k bits
  let pubkey := k.publicToPEM (k.toPublicKey key)
  let privkey ← privateToPEM k key []
  return (pemBytes pubkey, pemBytes privkey)

def savePrivKey (privkey : ByteSeq) (privkeyfile passphrase : QString) : FileMethod q Unit := do
  supportedRSA
  let imported := k.privateFromPEM (QString.fromAscii (getBinaryString privkey)) []
  if .ConvertGood ≠ imported.2 then
    throw ⟨lit "failed to read private key from input"⟩
  if ¬ (← privateToPEMFile k imported.1 privkeyfile (SecureArray passphrase.toStdString)) then
    throw ⟨lit "failed to save key"⟩

def savePubKey (pubkey : ByteSeq) (pubkeyfile : QString) : FileMethod q Unit := do
  supportedRSA
  let imported := k.publicFromPEM (QString.fromAscii (getBinaryString pubkey))
  if .ConvertGood ≠ imported.2 then
    throw ⟨lit "failed to read public key from input"⟩
  if ¬ (← publicToPEMFile k imported.1 pubkeyfile) then
    throw ⟨lit "failed to save key"⟩

def readPrivKey (privkeyfile passphrase : QString) : FileMethod q ByteSeq := do
  supportedRSA
  let opened ← privateFromPEMFile k privkeyfile (SecureArray passphrase.toStdString)
  if .ConvertGood ≠ opened.2 then
    if opened.2 = .ErrorFile then
      throw ⟨lit "failed to read private key from file"⟩
    else if opened.2 = .ErrorPassphrase then
      throw ⟨lit "wrong passphrase"⟩
    else
      throw ⟨lit "decoding failed"⟩
  let data ← privateToPEM k opened.1 []
  return pemBytes data

def readPubKey (pubkeyfile : QString) : FileMethod q ByteSeq := do
  supportedRSA
  let opened ← publicFromPEMFile k pubkeyfile
  if .ConvertGood ≠ opened.2 then
    if opened.2 = .ErrorFile then
      throw ⟨lit "failed to read public key from file"⟩
    else
      throw ⟨lit "decoding failed"⟩
  return pemBytes (k.publicToPEM opened.1)

end

/-! ## What each method does -/

namespace FileMethod
variable {α β : Type} (d : Desk q)

@[simp] theorem exec_pure (value : α) : (pure value : FileMethod q α).exec d = (.ok value, d) := rfl

@[simp] theorem exec_throw (e : SecurityException) : (throw e : FileMethod q α).exec d = (.error e, d) := rfl

@[simp] theorem exec_get : (get : FileMethod q (Desk q)).exec d = (.ok d, d) := rfl

@[simp] theorem exec_bind (m : FileMethod q α) (f : α → FileMethod q β) : (m >>= f).exec d = match m.exec d with
    | (.ok value, after) => (f value).exec after
    | (.error e, after) => (.error e, after) := by
  change (ExceptT.bindCont f (m.exec d).1).run (m.exec d).2 = _
  rcases m.exec d with ⟨_ | _, after⟩ <;> rfl

@[simp] theorem exec_map (f : α → β) (m : FileMethod q α) : (f <$> m).exec d = match m.exec d with
    | (.ok value, after) => (.ok (f value), after)
    | (.error e, after) => (.error e, after) :=
  exec_bind d m fun value => pure (f value)

@[simp] theorem exec_modifyGet (f : Desk q → α × Desk q) :
    (modifyGet f : FileMethod q α).exec d = (.ok (f d).1, (f d).2) := rfl

@[simp] theorem exec_method (m : Method q α) : (method m).exec d =
    ((m.exec d.context).1, { d with context := (m.exec d.context).2 }) := rfl

variable (k : q.Keys)

@[simp] theorem exec_createRSA (bits : Int) : (createRSA k bits).exec d =
    (.ok (k.createRSA bits d.context.random).1,
      { d with context.random := (k.createRSA bits d.context.random).2 }) := rfl

@[simp] theorem exec_privateToPEM (key : q.PrivateKey) (passphrase : QByteArray) :
    (privateToPEM k key passphrase).exec d = (.ok (k.privateToPEM key passphrase d.context.random).1,
      { d with context.random := (k.privateToPEM key passphrase d.context.random).2 }) := rfl

@[simp] theorem exec_stringToFile (fileName content : QString) : (stringToFile fileName content).exec d =
    if d.disk.writable fileName then
      (.ok true, { d with disk.content := Function.update d.disk.content fileName (some content) })
    else (.ok false, d) := by
  rw [stringToFile, exec_modifyGet]
  by_cases writable : d.disk.writable fileName <;> simp [writable]

@[simp] theorem exec_privateFromPEMFile (fileName : QString) (passphrase : QByteArray) :
    (privateFromPEMFile k fileName passphrase).exec d =
      (.ok ((d.disk.content fileName).elim (k.nullPrivateKey, .ErrorFile) (k.privateFromPEM · passphrase)), d) := by
  simp only [privateFromPEMFile, exec_bind, exec_get]
  cases d.disk.content fileName <;> rfl

@[simp] theorem exec_publicFromPEMFile (fileName : QString) : (publicFromPEMFile k fileName).exec d =
    (.ok ((d.disk.content fileName).elim (k.nullPublicKey, .ErrorFile) k.publicFromPEM), d) := by
  simp only [publicFromPEMFile, exec_bind, exec_get]
  cases d.disk.content fileName <;> rfl

end FileMethod
end Security
end SecureChat
