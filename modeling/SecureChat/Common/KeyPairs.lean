import SecureChat.Common.KeyStore
import SecureChat.Library.Ledger

/-!
# Generated keys

A key pair that has been generated and is then saved works for as long as its files are not saved
to again: what the private file signs, for a passphrase that opens it, the public file verifies.
-/

namespace SecureChat.Security
open Library FileMethod

inductive Saved where
  | privateKey (privkey : ByteSeq) (passphrase : QString)
  | publicKey (pubkey : ByteSeq)

/-- What a call has saved, if it has returned. -/
def savedBy : KeyCall → Except SecurityException KeyReply → Option (Change QString Saved)
  | .savePrivKey privkey file passphrase, .ok _ => some (.put file (.privateKey privkey passphrase))
  | .savePubKey pubkey file, .ok _ => some (.put file (.publicKey pubkey))
  | _, _ => none

section
variable {q : QCA}

abbrev KeyHistory (q : QCA) := List (Moment (Desk q) KeyCall (Except SecurityException KeyReply))

def saves (h : KeyHistory q) : List (Change QString Saved) :=
  h.filterMap fun m => savedBy m.action m.output

/-- What was saved last under each name. -/
def lastSaved (h : KeyHistory q) (file : QString) : Option Saved :=
  Ledger.replay (saves h) file

/-- The pair was generated with a number of bits for which there are keys. -/
def Generated (supports : Int → Prop) (h : KeyHistory q) (pubkey privkey : ByteSeq) : Prop :=
  ∃ m ∈ h, (∃ bits, supports bits ∧ m.action = .genRSAKey bits) ∧ m.output = .ok (.keys pubkey privkey)

/-- PEM texts are ASCII, keys that are generated with a supported number of bits can sign and verify,
and null keys can do neither. -/
structure DocumentedPairs (k : q.Keys) (supports : Int → Prop) : Prop where
  private_ascii : ∀ key r, ∀ unit ∈ (k.privateToPEM key [] r).1, 0 < unit ∧ unit < 128
  public_ascii : ∀ key, ∀ unit ∈ k.publicToPEM key, 0 < unit ∧ unit < 128
  canSign : ∀ bits r, supports bits → k.canSign (k.createRSA bits r).1 = true
  canVerify : ∀ bits r, supports bits → k.canVerify (k.toPublicKey (k.createRSA bits r).1) = true
  verify_sign : ∀ bits r, supports bits → ∀ data, k.verifyMessage (k.toPublicKey (k.createRSA bits r).1) data
    (k.signMessage (k.createRSA bits r).1 data) = true
  null : k.canSign k.nullPrivateKey = false
  nullPublic : k.canVerify k.nullPublicKey = false

end

/-! ## Texts as bytes -/

theorem getBinaryString_eq (bytes : ByteSeq) : getBinaryString bytes = bytes.toStdString := by
  induction bytes using List.reverseRecOn with
  | nil => rfl
  | append_singleton bytes byte ih =>
      rw [getBinaryString, List.foldl_append, ← getBinaryString, ih, ByteSeq.toStdString, ByteSeq.toStdString,
        List.map_append]
      rfl

theorem pemBytes_eq (text : QString) : pemBytes text = StdString.toByteSeq text.toStdString := by
  have size : text.length = text.toStdString.length := (List.length_map ..).symm
  rw [pemBytes, size, ← byteArraytoByteSeq_eq]
  rfl

private theorem ascii_unit {unit : UInt16} (ascii : 0 < unit ∧ unit < 128) :
    (if unit < 256 then unit.toUInt8.toInt8 else 63) ≠ 0 ∧
      (if unit < 256 then unit.toUInt8.toInt8 else 63).toUInt8.toUInt16 = unit := by
  obtain ⟨positive, small⟩ := ascii
  have within : unit < 256 := by grind
  have same : unit.toUInt8.toInt8.toUInt8.toUInt16 = unit := by
    rw [UInt8.toUInt8_toInt8, UInt16.toUInt16_toUInt8]
    have bound : unit.toNat < 128 := UInt16.lt_iff_toNat_lt.mp small
    apply UInt16.toNat_inj.mp
    rw [UInt16.toNat_mod]
    exact Nat.mod_eq_of_lt (by simpa using Nat.lt_trans bound (by decide))
  rw [if_pos within]
  refine ⟨fun zero => ?_, same⟩
  rw [zero] at same
  rw [← same] at positive
  exact absurd positive (by decide)

/-- A PEM text is read back from its bytes. -/
theorem fromAscii_pemBytes {text : QString} (ascii : ∀ unit ∈ text, 0 < unit ∧ unit < 128) :
    QString.fromAscii (getBinaryString (pemBytes text)) = text := by
  rw [getBinaryString_eq, pemBytes_eq, ByteSeq.toStdString_toByteSeq, QString.fromAscii]
  have noNul : (text.toStdString.takeWhile (· ≠ 0)) = text.toStdString := by
    refine List.takeWhile_eq_self_iff.mpr fun c member => ?_
    obtain ⟨unit, within, rfl⟩ := List.mem_map.mp member
    simpa using (ascii_unit (ascii unit within)).1
  rw [noNul, QString.fromStdString, QString.toStdString, List.map_map]
  exact (List.map_congr_left fun unit member => (ascii_unit (ascii unit member)).2).trans (List.map_id _)

/-! ## Support for RSA -/

section
variable {q : QCA} {α β : Type}

/-- The method leaves the support for RSA as it is. -/
def Steady (m : Method q α) : Prop := ∀ c, (m.exec c).2.self.m_rsa = c.self.m_rsa

theorem steady_pure (value : α) : Steady (pure value : Method q α) := fun _ => rfl

theorem steady_bind {m : Method q α} {f : α → Method q β} (first : Steady m) (rest : ∀ value, Steady (f value)) :
    Steady (m >>= f) := by
  intro c
  have before := first c
  rw [Security.exec_bind]
  rcases ended : m.exec c with ⟨value | e, after⟩ <;> rw [ended] at before
  · exact before
  · exact (rest _ after).trans before

theorem steady_check {c : Prop} [Decidable c] {e : SecurityException} {rest : Method q α} (steady : Steady rest) :
    Steady (do
      if c then
        throw e
      rest) := by
  by_cases failed : c
  · simp only [if_pos failed]
    exact fun _ => rfl
  · simp only [if_neg failed]
    exact steady

theorem steady_get : Steady (get : Method q (Context q)) := fun _ => rfl

theorem steady_processAES (key data : ByteSeq) (dir : Direction) : Steady (processAES key data dir : Method q ByteSeq) := by
  refine steady_bind steady_get fun _ => steady_check (steady_check ?_)
  cases dir with
  | encode => exact steady_bind (fun _ => rfl) fun iv => steady_bind (fun _ => rfl) fun _ =>
      steady_bind (fun _ => rfl) fun _ => steady_pure _
  | decode => exact steady_bind (fun _ => rfl) fun _ => steady_bind (fun _ => rfl) fun _ => steady_pure _

theorem steady_encryptRSA (key : q.PublicKey) (data : ByteSeq) : Steady (encryptRSA key data) := by
  refine steady_bind steady_get fun _ => steady_check (steady_check ?_)
  refine steady_bind (steady_bind steady_get fun _ => steady_check ?_) fun symkey => ?_
  · exact steady_bind (fun _ => rfl) fun _ => steady_pure _
  · exact steady_bind (steady_processAES symkey data .encode) fun _ => steady_bind (fun _ => rfl) fun _ => steady_pure _

theorem steady_decryptRSA (key : q.PrivateKey) (data : ByteSeq) : Steady (decryptRSA key data) := by
  refine steady_bind steady_get fun _ => steady_check (steady_check ?_)
  split
  · exact fun _ => rfl
  · exact steady_processAES _ _ .decode

variable (k : q.Keys)

theorem steady_signRSA (key : q.PrivateKey) (data : ByteSeq) : Steady (signRSA k key data) :=
  steady_bind steady_get fun _ => steady_check (steady_check (steady_pure _))

theorem steady_verifyRSA (key : q.PublicKey) (data signature : ByteSeq) : Steady (verifyRSA k key data signature) :=
  steady_bind steady_get fun _ => steady_check (steady_check (steady_pure _))

variable {k} {v : Vault q}

theorem Vault.steady (refused : ConvertResult) (call : KeyCall) :
    (v.step k refused call).2.context.self.m_rsa = v.context.self.m_rsa := by
  rw [Vault.step]
  split
  · cases call with
    | genRSAKey bits => rfl
    | savePrivKey privkey file passphrase =>
        rw [Vault.handle]
        split
        · rfl
        · rw [Vault.put]
          split <;> rfl
    | savePubKey pubkey file =>
        rw [Vault.handle]
        split
        · rfl
        · rw [Vault.put]
          split <;> rfl
    | readPrivKey file passphrase =>
        rw [Vault.handle]
        split
        · rfl
        · rfl
        · split
          · rfl
          · split <;> rfl
    | readPubKey file =>
        rw [Vault.handle]
        split <;> rfl
    | encryptRSA source data => exact steady_encryptRSA _ data v.context
    | decryptRSA source data => exact steady_decryptRSA _ data v.context
    | signRSA source data => exact steady_signRSA k _ data v.context
    | verifyRSA source data signature => exact steady_verifyRSA k _ data signature v.context
  · rfl

variable (k) in
/-- The entry of what was saved, which was read to make sure that it is a key. -/
def entryOf : Saved → Option (Entry q)
  | .privateKey privkey passphrase => (Vault.importPrivate k privkey).map fun key => .privateKey key (secret passphrase)
  | .publicKey pubkey => (Vault.importPublic k pubkey).map .publicKey

theorem Vault.put_cases (file : QString) (entry : Entry q) :
    v.put file entry = (.error ⟨lit "failed to save key"⟩, v) ∨
      v.put file entry = (.ok .void, { v with entry := Function.update v.entry file (some entry) }) := by
  rw [Vault.put]
  split
  · exact .inr rfl
  · exact .inl rfl

/-- A call that has saved something has entered it, and the other calls keep all entries. -/
theorem Vault.entry_step (refused : ConvertResult) (call : KeyCall) :
    (savedBy call (v.step k refused call).1 = none ∧ (v.step k refused call).2.entry = v.entry) ∨
      ∃ file saved entry, savedBy call (v.step k refused call).1 = some (.put file saved) ∧
        entryOf k saved = some entry ∧
        (v.step k refused call).2.entry = Function.update v.entry file (some entry) := by
  rw [Vault.step]
  split
  · cases call with
    | savePrivKey privkey file passphrase =>
        rw [Vault.handle]
        cases imported : Vault.importPrivate k privkey with
        | none => exact .inl ⟨rfl, rfl⟩
        | some key =>
            dsimp only
            rcases Vault.put_cases (v := (Vault.sealed k key (secret passphrase) v).2) file
              (.privateKey key (secret passphrase)) with failed | done
            · exact .inl (by rw [failed]; exact ⟨rfl, rfl⟩)
            · refine .inr ⟨file, .privateKey privkey passphrase, .privateKey key (secret passphrase), ?_, ?_, ?_⟩
              · rw [done]
                rfl
              · rw [entryOf, imported]
                rfl
              · rw [done]
                rfl
    | savePubKey pubkey file =>
        rw [Vault.handle]
        cases imported : Vault.importPublic k pubkey with
        | none => exact .inl ⟨rfl, rfl⟩
        | some key =>
            dsimp only
            rcases Vault.put_cases (v := v) file (.publicKey key) with failed | done
            · exact .inl (by rw [failed]; exact ⟨rfl, rfl⟩)
            · refine .inr ⟨file, .publicKey pubkey, .publicKey key, ?_, ?_, ?_⟩
              · rw [done]
                rfl
              · rw [entryOf, imported]
                rfl
              · rw [done]
    | readPrivKey file passphrase =>
        refine .inl ⟨rfl, ?_⟩
        rw [Vault.handle]
        split
        · rfl
        · rfl
        · split
          · rfl
          · split <;> rfl
    | readPubKey file =>
        refine .inl ⟨rfl, ?_⟩
        rw [Vault.handle]
        split <;> rfl
    | _ => exact .inl ⟨rfl, rfl⟩
  · exact .inl ⟨by cases call <;> rfl, rfl⟩

/-! ## Runs -/

/-- The texts of a key that was generated. -/
def PairOf (k : q.Keys) (supports : Int → Prop) (pubkey privkey : ByteSeq) (key : q.PrivateKey) : Prop :=
  (∃ bits r, supports bits ∧ key = (k.createRSA bits r).1) ∧
    pubkey = pemBytes (k.publicToPEM (k.toPublicKey key)) ∧ ∃ r, privkey = pemBytes (k.privateToPEM key [] r).1

theorem generated_step {supports : Int → Prop} {bits : Int} (enough : supports bits) {d : Desk q}
    {pubkey privkey : ByteSeq} (generated : (step k (.genRSAKey bits) d).1 = .ok (.keys pubkey privkey)) :
    ∃ key, PairOf k supports pubkey privkey key := by
  cases supported : d.context.self.m_rsa with
  | false => simp [step, callMethod, Security.genRSAKey, supportedRSA, supported] at generated
  | true =>
      simp only [step, callMethod, Security.genRSAKey, FileMethod.exec_bind, exec_supportedRSA d supported,
        exec_createRSA, exec_privateToPEM, FileMethod.exec_pure, Except.ok.injEq, KeyReply.keys.injEq] at generated
      exact ⟨_, ⟨bits, _, enough, rfl⟩, generated.1.symm, _, generated.2.symm⟩

theorem generated_pair {supports : Int → Prop} {d : Desk q} {calls : List KeyCall} {pubkey privkey : ByteSeq}
    (generated : Generated supports (history (step k) d calls) pubkey privkey) :
    ∃ key, PairOf k supports pubkey privkey key := by
  induction calls generalizing d with
  | nil =>
      obtain ⟨m, member, _⟩ := generated
      contradiction
  | cons call rest ih =>
      obtain ⟨m, member, ⟨bits, enough, called⟩, output⟩ := generated
      rcases List.mem_cons.mp member with rfl | later
      · obtain rfl : call = .genRSAKey bits := called
        exact generated_step enough output
      · exact ih ⟨m, later, ⟨bits, enough, called⟩, output⟩

variable (k) in
/-- What was saved last under a name is entered there. -/
def Entered (h : KeyHistory q) (v : Vault q) : Prop :=
  ∀ file saved, lastSaved h file = some saved → ∃ entry, entryOf k saved = some entry ∧ v.entry file = some entry

theorem saves_concat (h : KeyHistory q) (m : Moment (Desk q) KeyCall (Except SecurityException KeyReply)) :
    saves (h ++ [m]) = saves h ++ (savedBy m.action m.output).toList := by
  cases saved : savedBy m.action m.output <;> simp [saves, saved]

theorem Entered.step {h : KeyHistory q} (entered : Entered k h v) {refused : ConvertResult} {d : Desk q}
    {call : KeyCall} (same : (step k call d).1 = (v.step k refused call).1) :
    Entered k (h ++ [moment (Security.step k) d call]) (v.step k refused call).2 := by
  intro file saved last
  rw [lastSaved, saves_concat] at last
  simp only [moment, same] at last
  rcases Vault.entry_step (k := k) (v := v) refused call with ⟨nothing, kept⟩ | ⟨file', saved', entry, put, entered', now⟩
  · rw [nothing, Option.toList_none, List.append_nil] at last
    rw [kept]
    exact entered file saved last
  · rw [put, Option.toList_some, Ledger.replay_put] at last
    rw [now]
    by_cases here : file = file'
    · subst here
      rw [if_pos rfl, Option.some.injEq] at last
      exact ⟨entry, last ▸ entered', by simp⟩
    · rw [if_neg here] at last
      obtain ⟨entry', of, there⟩ := entered file saved last
      exact ⟨entry', of, by simpa [here] using there⟩

variable {refused : ConvertResult} {d : Desk q}

theorem entered_run (documented : DocumentedKeys k refused) (stores : Stores k d v)
    (supported : d.context.self.m_rsa = true) (calls : List KeyCall) :
    ∃ now, Stores k (final (step k) d calls) now ∧ Entered k (history (step k) d calls) now ∧
      now.context.self.m_rsa = true := by
  refine history_rule (step k) (fun h d => ∃ now, Stores k d now ∧ Entered k h now ∧ now.context.self.m_rsa = true)
    ⟨v, stores, fun _ _ last => by simp [lastSaved, saves] at last, stores.context ▸ supported⟩ ?_ calls
  intro past d call earlier
  obtain ⟨v, stores, entered, supported⟩ := earlier
  obtain ⟨same, after⟩ := stores.alike documented call
  exact ⟨(v.step k refused call).2, after, entered.step same, (Vault.steady refused call).trans supported⟩

theorem exec_signRSA {c : Context q} (supported : c.self.m_rsa = true) {key : q.PrivateKey}
    (canSign : k.canSign key = true) (data : ByteSeq) : (signRSA k key data).exec c =
      (.ok (byteArraytoByteSeq (k.signMessage key (byteSeqToByteArray data))), c) := by
  simp [signRSA, supported, canSign, byteArraytoByteSeq]

theorem exec_verifyRSA {c : Context q} (supported : c.self.m_rsa = true) {key : q.PublicKey}
    (canVerify : k.canVerify key = true) (data signature : ByteSeq) : (verifyRSA k key data signature).exec c =
      (.ok (k.verifyMessage key (byteSeqToByteArray data) (byteSeqToByteArray signature)), c) := by
  simp [verifyRSA, supported, canVerify]

theorem import_pair (documented : DocumentedKeys k refused) {supports : Int → Prop} (pairs : DocumentedPairs k supports)
    {key : q.PrivateKey} (signs : k.canSign key = true) (verifies : k.canVerify (k.toPublicKey key) = true)
    (r : q.Random) : Vault.importPrivate k (pemBytes (k.privateToPEM key [] r).1) = some key ∧
      Vault.importPublic k (pemBytes (k.publicToPEM (k.toPublicKey key))) = some (k.toPublicKey key) := by
  constructor
  · have there : key ≠ k.nullPrivateKey := by
      rintro rfl
      exact absurd (signs.symm.trans pairs.null) (by decide)
    rw [Vault.importPrivate, fromAscii_pemBytes (pairs.private_ascii key r),
      documented.private_private key there [] List.not_mem_nil [] List.not_mem_nil, if_pos (.inl rfl)]
  · have there : k.toPublicKey key ≠ k.nullPublicKey := fun null => by
      rw [null] at verifies
      exact absurd (verifies.symm.trans pairs.nullPublic) (by decide)
    rw [Vault.importPublic, fromAscii_pemBytes (pairs.public_ascii _), documented.public_public _ there]

end

theorem sealing_pairs : DocumentedPairs sealing.keys (512 ≤ ·) where
  private_ascii key r unit member := by
    cases key with
    | false => contradiction
    | true => exact List.mem_singleton.mp member ▸ by decide
  public_ascii key unit member := by
    cases key with
    | false => contradiction
    | true => exact List.mem_singleton.mp member ▸ by decide
  canSign bits r enough := decide_eq_true enough
  canVerify bits r enough := decide_eq_true enough
  verify_sign bits r enough data := decide_eq_true rfl
  null := rfl
  nullPublic := rfl

/-- The private key is saved again under another name, with a passphrase. -/
def sealing.generating : List KeyCall :=
  [.genRSAKey 2048, .savePrivKey [1] [107] [], .savePrivKey [1] [108] [112], .savePubKey [2] [109],
    .readPrivKey [107] [112]]

end SecureChat.Security
