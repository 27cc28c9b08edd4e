import Mathlib.Data.List.TakeWhile
import SecureChat.Common.Envelope
import SecureChat.Common.KeyFiles
import SecureChat.Library.Refinement

/-!
# Key files as a store of keys

What the methods on key files are for: a store that keeps keys under file names, private ones
behind a secret. A secret is what is left of a passphrase when QCA gets it. An empty one keeps
nobody out, and a key that does not come out is the null key for the methods that use keys.
-/

namespace SecureChat.Security
open Library FileMethod

inductive KeyCall where
  | genRSAKey (bits : Int)
  | savePrivKey (privkey : ByteSeq) (privkeyfile passphrase : QString)
  | savePubKey (pubkey : ByteSeq) (pubkeyfile : QString)
  | readPrivKey (privkeyfile passphrase : QString)
  | readPubKey (pubkeyfile : QString)
  | encryptRSA (source : PublicSource) (data : ByteSeq)
  | decryptRSA (source : PrivateSource) (data : ByteSeq)
  | signRSA (source : PrivateSource) (data : ByteSeq)
  | verifyRSA (source : PublicSource) (data signature : ByteSeq)

inductive KeyReply where
  | void
  | keys (pubkey privkey : ByteSeq)
  | bytes (bytes : ByteSeq)
  | verified (valid : Bool)

section
variable {q : QCA} (k : q.Keys)

def callMethod : KeyCall → FileMethod q KeyReply
  | .genRSAKey bits => do let keys ← genRSAKey k bits; return .keys keys.1 keys.2
  | .savePrivKey privkey privkeyfile passphrase => do savePrivKey k privkey privkeyfile passphrase; return .void
  | .savePubKey pubkey pubkeyfile => do savePubKey k pubkey pubkeyfile; return .void
  | .readPrivKey privkeyfile passphrase => return .bytes (← readPrivKey k privkeyfile passphrase)
  | .readPubKey pubkeyfile => return .bytes (← readPubKey k pubkeyfile)
  | .encryptRSA source data => return .bytes (← encryptRSAWith k source data)
  | .decryptRSA source data => return .bytes (← decryptRSAWith k source data)
  | .signRSA source data => return .bytes (← signRSAWith k source data)
  | .verifyRSA source data signature => return .verified (← verifyRSAWith k source data signature)

def step (call : KeyCall) (d : Desk q) : Except SecurityException KeyReply × Desk q :=
  (callMethod k call).exec d

/-! ## The store -/

inductive Entry (q : QCA) where
  | privateKey (key : q.PrivateKey) (secret : QByteArray)
  | publicKey (key : q.PublicKey)

structure Vault (q : QCA) where
  context : Context q
  entry : QString → Option (Entry q)
  writable : QString → Bool

/-- The secret of a passphrase. -/
def secret (passphrase : QString) : QByteArray := SecureArray passphrase.toStdString

namespace Vault

def Opens (own tried : QByteArray) : Prop := own = [] ∨ own = tried

instance (own tried : QByteArray) : Decidable (Opens own tried) := inferInstanceAs (Decidable (_ ∨ _))

def unlocked (v : Vault q) (file : QString) (tried : QByteArray) : Option q.PrivateKey :=
  match v.entry file with
  | some (.privateKey key own) => if Opens own tried then some key else none
  | _ => none

def privateKey (v : Vault q) : PrivateSource → q.PrivateKey
  | .privkeyfile file => (v.unlocked file []).getD k.nullPrivateKey
  | .passphrase file passphrase => (v.unlocked file (secret passphrase)).getD k.nullPrivateKey
  | .privkey privkey => (k.privateFromPEM (QString.fromStdString (getBinaryString privkey)) []).1

def publicKey (v : Vault q) : PublicSource → q.PublicKey
  | .pubkeyfile file => match v.entry file with
      | some (.publicKey key) => key
      | _ => k.nullPublicKey
  | .pubkey pubkey => (k.publicFromPEM (QString.fromStdString (getBinaryString pubkey))).1

def importPrivate (privkey : ByteSeq) : Option q.PrivateKey :=
  match k.privateFromPEM (QString.fromAscii (getBinaryString privkey)) [] with
  | (key, .ConvertGood) => some key
  | _ => none

def importPublic (pubkey : ByteSeq) : Option q.PublicKey :=
  match k.publicFromPEM (QString.fromAscii (getBinaryString pubkey)) with
  | (key, .ConvertGood) => some key
  | _ => none

/-- What needs no entry. -/
def method {α : Type} (reply : α → KeyReply) (m : Method q α) (v : Vault q) :
    Except SecurityException KeyReply × Vault q :=
  ((m.exec v.context).1.map reply, { v with context := (m.exec v.context).2 })

def put (v : Vault q) (file : QString) (entry : Entry q) : Except SecurityException KeyReply × Vault q :=
  if v.writable file then (.ok .void, { v with entry := Function.update v.entry file (some entry) })
  else (.error ⟨lit "failed to save key"⟩, v)

/-- The text of a private key, which takes from the random numbers when it is sealed. -/
def sealed (key : q.PrivateKey) (own : QByteArray) (v : Vault q) : QString × Vault q :=
  ((k.privateToPEM key own v.context.random).1,
    { v with context.random := (k.privateToPEM key own v.context.random).2 })

variable (refused : ConvertResult)

def handle : KeyCall → Vault q → Except SecurityException KeyReply × Vault q
  | .genRSAKey bits, v =>
      let key := (k.createRSA bits v.context.random).1
      let (pem, after) := sealed k key [] { v with context.random := (k.createRSA bits v.context.random).2 }
      (.ok (.keys (pemBytes (k.publicToPEM (k.toPublicKey key))) (pemBytes pem)), after)
  | .savePrivKey privkey file passphrase, v =>
      match importPrivate k privkey with
      | none => (.error ⟨lit "failed to read private key from input"⟩, v)
      | some key => (sealed k key (secret passphrase) v).2.put file (.privateKey key (secret passphrase))
  | .savePubKey pubkey file, v =>
      match importPublic k pubkey with
      | none => (.error ⟨lit "failed to read public key from input"⟩, v)
      | some key => v.put file (.publicKey key)
  | .readPrivKey file passphrase, v =>
      match v.entry file with
      | none => (.error ⟨lit "failed to read private key from file"⟩, v)
      | some (.publicKey _) => (.error ⟨lit "decoding failed"⟩, v)
      | some (.privateKey key own) =>
          if Opens own (secret passphrase) then
            let (pem, after) := sealed k key [] v
            (.ok (.bytes (pemBytes pem)), after)
          else if refused = .ErrorPassphrase then (.error ⟨lit "wrong passphrase"⟩, v)
          else (.error ⟨lit "decoding failed"⟩, v)
  | .readPubKey file, v =>
      match v.entry file with
      | none => (.error ⟨lit "failed to read public key from file"⟩, v)
      | some (.privateKey _ _) => (.error ⟨lit "decoding failed"⟩, v)
      | some (.publicKey key) => (.ok (.bytes (pemBytes (k.publicToPEM key))), v)
  | .encryptRSA source data, v => v.method .bytes (Security.encryptRSA (v.publicKey k source) data)
  | .decryptRSA source data, v => v.method .bytes (Security.decryptRSA (v.privateKey k source) data)
  | .signRSA source data, v => v.method .bytes (Security.signRSA k (v.privateKey k source) data)
  | .verifyRSA source data signature, v =>
      v.method .verified (Security.verifyRSA k (v.publicKey k source) data signature)

/-- `refused` is what QCA reports for a wrong passphrase. -/
def step (call : KeyCall) (v : Vault q) : Except SecurityException KeyReply × Vault q :=
  if v.context.self.m_rsa then v.handle k refused call else (.error ⟨lit "RSA not supported"⟩, v)

end Vault

/-! ## PEM texts -/

/-- The PEM text of a key that is not null gives back that key, a sealed one for its passphrase only,
and a key that is read is not null. Passphrases are C strings. -/
structure DocumentedKeys (refused : ConvertResult) : Prop where
  private_private : ∀ key, key ≠ k.nullPrivateKey → ∀ own, 0 ∉ own → ∀ tried, 0 ∉ tried → ∀ r,
    k.privateFromPEM (k.privateToPEM key own r).1 tried =
      if Vault.Opens own tried then (key, .ConvertGood) else (k.nullPrivateKey, refused)
  private_public : ∀ key, key ≠ k.nullPublicKey → ∀ tried,
    k.privateFromPEM (k.publicToPEM key) tried = (k.nullPrivateKey, .ErrorDecode)
  private_good : ∀ pem tried, (k.privateFromPEM pem tried).2 = .ConvertGood →
    (k.privateFromPEM pem tried).1 ≠ k.nullPrivateKey
  public_public : ∀ key, key ≠ k.nullPublicKey → k.publicFromPEM (k.publicToPEM key) = (key, .ConvertGood)
  public_private : ∀ key, key ≠ k.nullPrivateKey → ∀ own r,
    k.publicFromPEM (k.privateToPEM key own r).1 = (k.nullPublicKey, .ErrorDecode)
  public_good : ∀ pem, (k.publicFromPEM pem).2 = .ConvertGood → (k.publicFromPEM pem).1 ≠ k.nullPublicKey
  refuses : refused = .ErrorPassphrase ∨ refused = .ErrorDecode

/-- A file holds what is entered under its name. -/
inductive Holds : Option QString → Option (Entry q) → Prop
  | nothing : Holds none none
  | privateKey (key : q.PrivateKey) (own : QByteArray) (r : q.Random) (there : key ≠ k.nullPrivateKey)
      (whole : 0 ∉ own) : Holds (some (k.privateToPEM key own r).1) (some (.privateKey key own))
  | publicKey (key : q.PublicKey) (there : key ≠ k.nullPublicKey) :
      Holds (some (k.publicToPEM key)) (some (.publicKey key))

structure Stores (d : Desk q) (v : Vault q) : Prop where
  context : d.context = v.context
  writable : d.disk.writable = v.writable
  holds : ∀ file, Holds k (d.disk.content file) (v.entry file)

variable {k} {refused : ConvertResult} {d : Desk q} {v : Vault q}

theorem secret_whole (passphrase : QString) : 0 ∉ secret passphrase := fun member => by
  simpa using List.mem_takeWhile_imp member

theorem DocumentedKeys.imported (documented : DocumentedKeys k refused) {privkey : ByteSeq} {key : q.PrivateKey}
    (good : Vault.importPrivate k privkey = some key) : key ≠ k.nullPrivateKey := by
  have there := documented.private_good (QString.fromAscii (getBinaryString privkey)) []
  rw [Vault.importPrivate] at good
  split at good
  · next opened =>
      rw [opened] at there
      exact Option.some.inj good ▸ there rfl
  · contradiction

theorem DocumentedKeys.importedPublic (documented : DocumentedKeys k refused) {pubkey : ByteSeq} {key : q.PublicKey}
    (good : Vault.importPublic k pubkey = some key) : key ≠ k.nullPublicKey := by
  have there := documented.public_good (QString.fromAscii (getBinaryString pubkey))
  rw [Vault.importPublic] at good
  split at good
  · next opened =>
      rw [opened] at there
      exact Option.some.inj good ▸ there rfl
  · contradiction

theorem Stores.openPrivate (stores : Stores k d v) (documented : DocumentedKeys k refused) (file : QString)
    {tried : QByteArray} (whole : 0 ∉ tried) :
    (d.disk.content file).elim (k.nullPrivateKey, .ErrorFile) (k.privateFromPEM · tried) =
      match v.entry file with
      | none => (k.nullPrivateKey, .ErrorFile)
      | some (.privateKey key own) =>
          if Vault.Opens own tried then (key, .ConvertGood) else (k.nullPrivateKey, refused)
      | some (.publicKey _) => (k.nullPrivateKey, .ErrorDecode) := by
  have holds := stores.holds file
  generalize d.disk.content file = content at holds
  generalize v.entry file = entry at holds
  cases holds with
  | nothing => rfl
  | privateKey key own r there sealed => exact documented.private_private key there own sealed tried whole r
  | publicKey key there => exact documented.private_public key there tried

theorem Stores.openPublic (stores : Stores k d v) (documented : DocumentedKeys k refused) (file : QString) :
    (d.disk.content file).elim (k.nullPublicKey, .ErrorFile) k.publicFromPEM =
      match v.entry file with
      | none => (k.nullPublicKey, .ErrorFile)
      | some (.privateKey _ _) => (k.nullPublicKey, .ErrorDecode)
      | some (.publicKey key) => (key, .ConvertGood) := by
  have holds := stores.holds file
  generalize d.disk.content file = content at holds
  generalize v.entry file = entry at holds
  cases holds with
  | nothing => rfl
  | privateKey key own r there whole => exact documented.public_private key there own r
  | publicKey key there => exact documented.public_public key there

theorem Stores.privateKey (stores : Stores k d v) (documented : DocumentedKeys k refused) (source : PrivateSource) :
    (privateKey k source).exec d = (.ok (v.privateKey k source), d) := by
  have opened (file : QString) {tried : QByteArray} (whole : 0 ∉ tried) :
      ((d.disk.content file).elim (k.nullPrivateKey, .ErrorFile) (k.privateFromPEM · tried)).1 =
        (v.unlocked file tried).getD k.nullPrivateKey := by
    rw [stores.openPrivate documented file whole, Vault.unlocked]
    rcases v.entry file with _ | ⟨key, own⟩ | key
    · rfl
    · by_cases opens : Vault.Opens own tried <;> simp [opens]
    · rfl
  cases source with
  | privkeyfile file => simp [Security.privateKey, Vault.privateKey, opened file List.not_mem_nil]
  | passphrase file passphrase =>
      have opened := opened file (secret_whole passphrase)
      rw [secret] at opened
      simp [Security.privateKey, Vault.privateKey, opened, secret]
  | privkey privkey => rfl

theorem Stores.publicKey (stores : Stores k d v) (documented : DocumentedKeys k refused) (source : PublicSource) :
    (publicKey k source).exec d = (.ok (v.publicKey k source), d) := by
  cases source with
  | pubkeyfile file =>
      simp only [Security.publicKey, FileMethod.exec_bind, exec_publicFromPEMFile, stores.openPublic documented,
        FileMethod.exec_pure, Vault.publicKey]
      rcases v.entry file with _ | ⟨key, own⟩ | key <;> rfl
  | pubkey pubkey => rfl

theorem Stores.withContext (stores : Stores k d v) (context : Context q) :
    Stores k { d with context := context } { v with context := context } :=
  ⟨rfl, stores.writable, stores.holds⟩

theorem Stores.write (stores : Stores k d v) {file content : QString} {entry : Entry q}
    (holds : Holds k (some content) (some entry)) :
    Stores k { d with disk.content := Function.update d.disk.content file (some content) }
      { v with entry := Function.update v.entry file (some entry) } := by
  refine ⟨stores.context, stores.writable, fun other => ?_⟩
  by_cases same : other = file
  · subst same
    simpa using holds
  · simpa [same] using stores.holds other

/-- The same reply, and again a disk that stores what is in the vault. -/
def Alike (k : q.Keys) (handled : Except SecurityException KeyReply × Desk q)
    (specified : Except SecurityException KeyReply × Vault q) : Prop :=
  handled.1 = specified.1 ∧ Stores k handled.2 specified.2

theorem exec_supportedRSA (d : Desk q) (supported : d.context.self.m_rsa = true) :
    FileMethod.exec supportedRSA d = (.ok (), d) := by
  simp [supportedRSA, supported]

theorem Stores.genRSAKey (stores : Stores k d v) (supported : d.context.self.m_rsa = true) (bits : Int) :
    Alike k (step k (.genRSAKey bits) d) (v.handle k refused (.genRSAKey bits)) := by
  simp only [step, callMethod, Security.genRSAKey, FileMethod.exec_bind, exec_supportedRSA d supported,
    exec_createRSA, exec_privateToPEM, FileMethod.exec_pure, Vault.handle, Vault.sealed, stores.context]
  exact ⟨rfl, stores.withContext _⟩

theorem Stores.put (stores : Stores k d v) {file content : QString} {entry : Entry q}
    (holds : Holds k (some content) (some entry)) :
    Alike k (match (stringToFile file content).exec d with
      | (.ok written, after) => if written then (.ok .void, after) else (.error ⟨lit "failed to save key"⟩, after)
      | (.error e, after) => (.error e, after)) (v.put file entry) := by
  rw [exec_stringToFile, stores.writable, Vault.put]
  by_cases writable : v.writable file
  · simp only [if_pos writable, if_true]
    exact ⟨rfl, stores.write holds⟩
  · simp only [if_neg writable, Bool.false_eq_true, if_false]
    exact ⟨rfl, stores⟩

private theorem step_savePrivKey (supported : d.context.self.m_rsa = true) (privkey : ByteSeq)
    (file passphrase : QString) : step k (.savePrivKey privkey file passphrase) d =
      match Vault.importPrivate k privkey with
      | none => (.error ⟨lit "failed to read private key from input"⟩, d)
      | some key =>
          let made := k.privateToPEM key (secret passphrase) d.context.random
          let after : Desk q := { d with context.random := made.2 }
          match (stringToFile file made.1).exec after with
          | (.ok written, after) => if written then (.ok .void, after) else (.error ⟨lit "failed to save key"⟩, after)
          | (.error e, after) => (.error e, after) := by
  simp only [step, callMethod, Security.savePrivKey, FileMethod.exec_bind, exec_supportedRSA d supported,
    Vault.importPrivate, secret]
  rcases k.privateFromPEM (QString.fromAscii (getBinaryString privkey)) [] with ⟨key, r⟩
  cases r with
  | ConvertGood => by_cases writable : d.disk.writable file <;> simp [privateToPEMFile, writable]
  | _ => rfl

private theorem step_savePubKey (supported : d.context.self.m_rsa = true) (pubkey : ByteSeq) (file : QString) :
    step k (.savePubKey pubkey file) d = match Vault.importPublic k pubkey with
      | none => (.error ⟨lit "failed to read public key from input"⟩, d)
      | some key => match (stringToFile file (k.publicToPEM key)).exec d with
          | (.ok written, after) => if written then (.ok .void, after) else (.error ⟨lit "failed to save key"⟩, after)
          | (.error e, after) => (.error e, after) := by
  simp only [step, callMethod, Security.savePubKey, FileMethod.exec_bind, exec_supportedRSA d supported,
    Vault.importPublic]
  rcases k.publicFromPEM (QString.fromAscii (getBinaryString pubkey)) with ⟨key, r⟩
  cases r with
  | ConvertGood => by_cases writable : d.disk.writable file <;> simp [publicToPEMFile, writable]
  | _ => rfl

theorem Stores.savePrivKey (stores : Stores k d v) (documented : DocumentedKeys k refused)
    (supported : d.context.self.m_rsa = true) (privkey : ByteSeq)
    (file passphrase : QString) : Alike k (step k (.savePrivKey privkey file passphrase) d)
      (v.handle k refused (.savePrivKey privkey file passphrase)) := by
  rw [step_savePrivKey supported, Vault.handle]
  cases imported : Vault.importPrivate k privkey with
  | none => exact ⟨rfl, stores⟩
  | some key =>
      simp only [Vault.sealed, ← stores.context]
      exact (stores.withContext ⟨d.context.self, _⟩).put
        (.privateKey key _ _ (documented.imported imported) (secret_whole passphrase))

theorem Stores.savePubKey (stores : Stores k d v) (documented : DocumentedKeys k refused)
    (supported : d.context.self.m_rsa = true) (pubkey : ByteSeq)
    (file : QString) : Alike k (step k (.savePubKey pubkey file) d)
      (v.handle k refused (.savePubKey pubkey file)) := by
  rw [step_savePubKey supported, Vault.handle]
  cases imported : Vault.importPublic k pubkey with
  | none => exact ⟨rfl, stores⟩
  | some key => exact stores.put (.publicKey key (documented.importedPublic imported))

theorem Stores.readPrivKey (stores : Stores k d v) (documented : DocumentedKeys k refused)
    (supported : d.context.self.m_rsa = true) (file passphrase : QString) :
    Alike k (step k (.readPrivKey file passphrase) d) (v.handle k refused (.readPrivKey file passphrase)) := by
  simp only [step, callMethod, Security.readPrivKey, FileMethod.exec_bind, exec_supportedRSA d supported,
    exec_privateFromPEMFile, ← secret.eq_def, stores.openPrivate documented file (secret_whole passphrase),
    Vault.handle]
  rcases v.entry file with _ | ⟨key, own⟩ | key
  · exact ⟨rfl, stores⟩
  · by_cases opens : Vault.Opens own (secret passphrase)
    · simp only [if_pos opens, Vault.sealed, ← stores.context]
      exact ⟨rfl, stores.withContext ⟨d.context.self, _⟩⟩
    · simp only [if_neg opens]
      rcases documented.refuses with rfl | rfl <;> exact ⟨rfl, stores⟩
  · exact ⟨rfl, stores⟩

theorem Stores.readPubKey (stores : Stores k d v) (documented : DocumentedKeys k refused)
    (supported : d.context.self.m_rsa = true) (file : QString) :
    Alike k (step k (.readPubKey file) d) (v.handle k refused (.readPubKey file)) := by
  simp only [step, callMethod, Security.readPubKey, FileMethod.exec_bind, exec_supportedRSA d supported,
    exec_publicFromPEMFile, stores.openPublic documented, Vault.handle]
  rcases v.entry file with _ | ⟨key, own⟩ | key
  · exact ⟨rfl, stores⟩
  · exact ⟨rfl, stores⟩
  · exact ⟨rfl, stores⟩

theorem Stores.method (stores : Stores k d v) {α : Type} (reply : α → KeyReply) (m : Method q α) :
    Alike k (FileMethod.exec (do return reply (← FileMethod.method m)) d) (v.method reply m) := by
  simp only [FileMethod.exec_bind, FileMethod.exec_method, stores.context, Vault.method]
  have later := stores.withContext (m.exec v.context).2
  cases ended : (m.exec v.context).1 with
  | ok value => exact ⟨rfl, later⟩
  | error e => exact ⟨rfl, later⟩

theorem Stores.usePublic (stores : Stores k d v) (documented : DocumentedKeys k refused) {α : Type}
    (reply : α → KeyReply) (source : PublicSource) (use : q.PublicKey → Method q α) :
    Alike k (FileMethod.exec (do
      let value ← (do
        let key ← Security.publicKey k source
        FileMethod.method (use key))
      return reply value) d) (v.method reply (use (v.publicKey k source))) := by
  have used := stores.method reply (use (v.publicKey k source))
  simp only [FileMethod.exec_bind, stores.publicKey documented] at used ⊢
  exact used

theorem Stores.usePrivate (stores : Stores k d v) (documented : DocumentedKeys k refused) {α : Type}
    (reply : α → KeyReply) (source : PrivateSource) (use : q.PrivateKey → Method q α) :
    Alike k (FileMethod.exec (do
      let value ← (do
        let key ← Security.privateKey k source
        FileMethod.method (use key))
      return reply value) d) (v.method reply (use (v.privateKey k source))) := by
  have used := stores.method reply (use (v.privateKey k source))
  simp only [FileMethod.exec_bind, stores.privateKey documented] at used ⊢
  exact used

/-! ## Without RSA -/

private theorem step_unsupported (unsupported : d.context.self.m_rsa = false) {call : KeyCall}
    {α : Type} {rest : FileMethod q α} {reply : α → FileMethod q KeyReply}
    (method : callMethod k call = do
      let value ← (do
        supportedRSA
        rest)
      reply value) : step k call d = (.error ⟨lit "RSA not supported"⟩, d) := by
  rw [step, method]
  simp [supportedRSA, unsupported]

private theorem step_use {α : Type} {call : KeyCall} {reply : α → KeyReply} {m : Method q α}
    (handles : v.handle k refused call = v.method reply m)
    (unsupported : v.context.self.m_rsa = false → m.exec v.context = (.error ⟨lit "RSA not supported"⟩, v.context)) :
    v.step k refused call = v.method reply m := by
  rw [Vault.step]
  by_cases supported : v.context.self.m_rsa = true
  · rw [if_pos supported, handles]
  · rw [if_neg supported, Vault.method, unsupported (by simpa using supported)]
    rfl

theorem Stores.alike (stores : Stores k d v) (documented : DocumentedKeys k refused) (call : KeyCall) :
    Alike k (step k call d) (v.step k refused call) := by
  have either (without : d.context.self.m_rsa = false → step k call d = (.error ⟨lit "RSA not supported"⟩, d))
      (withRSA : d.context.self.m_rsa = true → Alike k (step k call d) (v.handle k refused call)) :
      Alike k (step k call d) (v.step k refused call) := by
    cases supported : d.context.self.m_rsa with
    | false =>
        rw [without supported, Vault.step, ← stores.context, supported]
        exact ⟨rfl, stores⟩
    | true =>
        rw [Vault.step, ← stores.context, supported, if_pos rfl]
        exact withRSA supported
  cases call with
  | genRSAKey bits =>
      exact either (fun unsupported => step_unsupported unsupported rfl)
        fun supported => stores.genRSAKey supported bits
  | savePrivKey privkey file passphrase =>
      exact either (fun unsupported => step_unsupported unsupported rfl)
        fun supported => stores.savePrivKey documented supported privkey file passphrase
  | savePubKey pubkey file =>
      exact either (fun unsupported => step_unsupported unsupported rfl)
        fun supported => stores.savePubKey documented supported pubkey file
  | readPrivKey file passphrase =>
      exact either (fun unsupported => step_unsupported unsupported rfl)
        fun supported => stores.readPrivKey documented supported file passphrase
  | readPubKey file =>
      exact either (fun unsupported => step_unsupported unsupported rfl)
        fun supported => stores.readPubKey documented supported file
  | encryptRSA source data =>
      rw [step_use (m := Security.encryptRSA _ data) rfl fun no => by simp [Security.encryptRSA, no]]
      exact stores.usePublic documented .bytes source fun key => Security.encryptRSA key data
  | decryptRSA source data =>
      rw [step_use (m := Security.decryptRSA _ data) rfl fun no => by simp [Security.decryptRSA, no]]
      exact stores.usePrivate documented .bytes source fun key => Security.decryptRSA key data
  | signRSA source data =>
      rw [step_use (m := Security.signRSA k _ data) rfl fun no => by simp [Security.signRSA, no]]
      exact stores.usePrivate documented .bytes source fun key => Security.signRSA k key data
  | verifyRSA source data signature =>
      rw [step_use (m := Security.verifyRSA k _ data signature) rfl fun no => by simp [Security.verifyRSA, no]]
      exact stores.usePublic documented .verified source fun key => Security.verifyRSA k key data signature

/-- Every run of calls on key files replies as the same run on a vault with the keys themselves. -/
theorem key_files_store_keys (documented : DocumentedKeys k refused) (stores : Stores k d v) (calls : List KeyCall) :
    (history (step k) d calls).map Moment.output = (history (Vault.step k refused) v calls).map Moment.output ∧
      Stores k (final (step k) d calls) (final (Vault.step k refused) v calls) :=
  simulation_rule (step k) (Vault.step k refused) (Stores k)
    (fun _ _ call now => now.alike documented call) calls stores

end

/-! ## An instance -/

/-- The keys are there or null, and a null key has no PEM text. A text says what it is of, followed by
the secret. -/
def sealing : QCA :=
  { padding 1024 with
    PublicKey := Bool
    canEncrypt := id
    maximumEncryptSize _ := 86
    encrypt _ text r := (text, r)
    PrivateKey := Bool
    canDecrypt := id
    bitSize _ := 1024
    decrypt key block := if key then some block else none }

def sealing.keys : sealing.Keys where
  createRSA bits r := (decide (512 ≤ bits), r)
  toPublicKey := id
  canSign := id
  signMessage _ data := data
  canVerify := id
  verifyMessage _ data signature := data = signature
  nullPrivateKey := false
  nullPublicKey := false
  privateToPEM key own r := (bif key then 1 :: QString.fromStdString own else [], r)
  privateFromPEM pem tried := match pem with
    | 1 :: own =>
        if own = [] ∨ own = QString.fromStdString tried then (true, .ConvertGood)
        else (false, .ErrorPassphrase)
    | _ => (false, .ErrorDecode)
  publicToPEM key := bif key then [2] else []
  publicFromPEM pem := match pem with
    | [2] => (true, .ConvertGood)
    | _ => (false, .ErrorDecode)

theorem sealing_documented : DocumentedKeys sealing.keys .ErrorPassphrase where
  private_private key there own _ tried _ r := by
    have empty : QString.fromStdString own = [] ↔ own = [] := List.map_eq_nil_iff
    have same : QString.fromStdString own = QString.fromStdString tried ↔ own = tried :=
      QString.fromStdString_injective.eq_iff
    cases key with
    | false => exact absurd rfl there
    | true =>
        simp only [sealing.keys, cond_true, empty, same, Vault.Opens]
        rfl
  private_public key there tried := by
    cases key with
    | false => exact absurd rfl there
    | true => rfl
  private_good pem tried good := by
    dsimp only [sealing.keys] at good ⊢
    split at good
    · split at good
      · next opens =>
          rw [if_pos opens]
          exact Bool.false_ne_true.symm
      · contradiction
    · contradiction
  public_public key there := by
    cases key with
    | false => exact absurd rfl there
    | true => rfl
  public_private key there own r := by
    cases key with
    | false => exact absurd rfl there
    | true => rfl
  public_good pem good := by
    dsimp only [sealing.keys] at good ⊢
    split at good
    · exact Bool.false_ne_true.symm
    · contradiction
  refuses := .inl rfl

/-- Every file can be written to, and none is there. -/
def sealing.desk : Desk sealing := ⟨⟨new true true true, ()⟩, ⟨fun _ => none, fun _ => true⟩⟩

def sealing.vault : Vault sealing := ⟨⟨new true true true, ()⟩, fun _ => none, fun _ => true⟩

/-- The key is saved with a passphrase of one letter and read with another one: neither is Latin-1. -/
def sealing.calls : List KeyCall :=
  [.savePrivKey [1] [107] [0x43F], .readPrivKey [107] [0x44F], .readPrivKey [107] [120],
    .signRSA (.privkeyfile [107]) [5]]

example : (history (step sealing.keys) sealing.desk sealing.calls).map Moment.output =
    [.ok .void, .ok (.bytes [1]), .error ⟨lit "wrong passphrase"⟩,
      .error ⟨lit "supplied key can not sign"⟩] := rfl

theorem key_files_store_keys_sealing :
    (history (step sealing.keys) sealing.desk sealing.calls).map Moment.output =
        (history (Vault.step sealing.keys .ErrorPassphrase) sealing.vault sealing.calls).map Moment.output ∧
      Stores sealing.keys (final (step sealing.keys) sealing.desk sealing.calls)
        (final (Vault.step sealing.keys .ErrorPassphrase) sealing.vault sealing.calls) :=
  key_files_store_keys sealing_documented ⟨rfl, rfl, fun _ => .nothing⟩ sealing.calls

end SecureChat.Security
