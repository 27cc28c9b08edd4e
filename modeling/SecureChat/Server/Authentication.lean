import SecureChat.Common.Helper
import SecureChat.Server.Protocol

/-!
# AuthenticationImpl
-/

namespace SecureChat.AuthenticationImpl
open Body

def registerUser (u : User) (pw : StdString) : Body Unit := do
  let name := if isValidID u.ID then getNameFromID u.ID else u.ID
  createUsers
  let id : Option StdString := (← selectUser name).map Row.id
  if id.isSome then
    throw (AuthenticationException (lit "ID already exists"))
  let pubkey := u.publicKey.toStdString
  insertUser ⟨name, pw, pubkey⟩
  info [lit "Registered ", u.ID]

def login (u : User) (pw : StdString) (callbackID : Identity) : Body StdString := do
  let name := if isValidID u.ID then getNameFromID u.ID else u.ID
  createUsers
  match ← selectUser name with
  | none => throw (AuthenticationException (lit "unknown ID"))
  | some stored =>
      if pw ≠ stored.pw then
        throw (AuthenticationException (lit "invalid password"))
      let providedPubkey := u.publicKey.toStdString
      if providedPubkey ≠ [] ∧ providedPubkey ≠ stored.pubkey then
        throw (AuthenticationException (lit "public key can't change"))
      callbackForID callbackID
      if (← echo callbackID (lit "42")) ≠ lit "42" then
        throw (AuthenticationException (lit "echo not working"))
      info [lit "Logging in ", u.ID]
      -- the key of the registration goes into the session, not the one provided now
      let user : User := ⟨name, StdString.toByteSeq stored.pubkey⟩
      exposeObject ⟨true, user⟩

end SecureChat.AuthenticationImpl
