import SecureChat.Common.Helper
import SecureChat.Server.Protocol

/-!
# SessionImpl

The twelve operations of a session. Most are stubs that log a line and return a default value.
-/

namespace SecureChat

inductive SessionMethod where
  | logout
  | retrieveUser (userID : StdString)
  | initChat
  | leaveChat (chat : StdString)
  | invite (other : User) (chat : StdString) (sessionKey : ByteSeq)
  | sendMessage (message : ByteSeq) (chat : StdString)
  | deleteUser (u : User)
  | saveLog (chat : StdString) (timestamp : Int64) (log : SecureContainer)
  | retrieveLoglist
  | retrieveLog (chat : StdString) (timestamp : Int64)
  | saveContactList (contactList : SecureContainer)
  | retrieveContactList
  deriving DecidableEq

inductive Value where
  | void
  | proxy (uuid : StdString)
  | string (s : StdString)
  | user (u : User)
  | loglist (entries : List ChatlogEntry)
  | container (c : SecureContainer)
  deriving DecidableEq

namespace SessionImpl
open Body

def logout (self : SessionImpl) : Body Unit := do
  info [lit "<stub> logging out ", self.user.ID]
  setLoggedIn false

def retrieveUser (_ : SessionImpl) (_userID : StdString) : Body User :=
  return ⟨[], []⟩

def deleteUser (self : SessionImpl) (u : User) : Body Unit := do
  if u.ID ≠ self.user.ID then
    throw (UserHandlingException (lit "deleting other users is not permitted"))
  let name := if isValidID u.ID then getNameFromID u.ID else u.ID
  tryCatch (deleteUsers name) fun
    | .soci _ => throw (UserHandlingException (lit "unknown ID"))
    | e => throw e
  info [self.user.ID, lit " deleted account of ", u.ID]

def initChat (self : SessionImpl) : Body StdString := do
  info [lit "<stub> initChat by ", self.user.ID]
  return []

def leaveChat (self : SessionImpl) (chat : StdString) : Body Unit :=
  info [lit "<stub> ", self.user.ID, lit " leaves chat ", chat]

def invite (self : SessionImpl) (other : User) (chat : StdString) (_sessionKey : ByteSeq) : Body Unit :=
  info [lit "<stub> ", self.user.ID, lit " invites ", other.ID, lit " to ", chat]

def sendMessage (self : SessionImpl) (_message : ByteSeq) (chat : StdString) : Body Unit :=
  info [lit "<stub> ", self.user.ID, lit " posts to ", chat]

def saveLog (self : SessionImpl) (_chat : StdString) (_timestamp : Int64) (_log : SecureContainer) :
    Body Unit :=
  info [lit "<stub> saveLog for ", self.user.ID]

def retrieveLoglist (self : SessionImpl) : Body (List ChatlogEntry) := do
  info [lit "<stub> retrieveLoglist for ", self.user.ID]
  return []

def retrieveLog (self : SessionImpl) (_chat : StdString) (_timestamp : Int64) : Body SecureContainer := do
  info [lit "<stub> retrieveLog for ", self.user.ID]
  return ⟨[], []⟩

def saveContactList (self : SessionImpl) (_contactList : SecureContainer) : Body Unit :=
  info [lit "<stub> saveContactList for ", self.user.ID]

def retrieveContactList (self : SessionImpl) : Body SecureContainer := do
  info [lit "<stub> retrieveContactList for ", self.user.ID]
  return ⟨[], []⟩

def invoke (self : SessionImpl) : SessionMethod → Body Value
  | .logout => do self.logout; return .void
  | .retrieveUser userID => return .user (← self.retrieveUser userID)
  | .initChat => return .string (← self.initChat)
  | .leaveChat chat => do self.leaveChat chat; return .void
  | .invite other chat sessionKey => do self.invite other chat sessionKey; return .void
  | .sendMessage message chat => do self.sendMessage message chat; return .void
  | .deleteUser u => do self.deleteUser u; return .void
  | .saveLog chat timestamp log => do self.saveLog chat timestamp log; return .void
  | .retrieveLoglist => return .loglist (← self.retrieveLoglist)
  | .retrieveLog chat timestamp => return .container (← self.retrieveLog chat timestamp)
  | .saveContactList contactList => do self.saveContactList contactList; return .void
  | .retrieveContactList => return .container (← self.retrieveContactList)

end SessionImpl
end SecureChat
