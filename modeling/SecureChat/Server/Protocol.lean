import SecureChat.Library.Program
import SecureChat.Server.Database

/-!
# What the servants exchange with their surroundings

The data types and the exception classes of `SecureDistributedChat.ice`, and the requests that a
servant makes while it handles a call: SQL statements, the callback of the client, the exposure of
a new object, its own `loggedIn` flag and the logger.
-/

namespace SecureChat
open Library

structure User where
  ID : StdString
  publicKey : ByteSeq
  deriving DecidableEq

structure SecureContainer where
  data : ByteSeq
  signature : ByteSeq
  deriving DecidableEq

structure ChatlogEntry where
  chatID : StdString
  timestamp : Int64
  deriving DecidableEq

structure Identity where
  name : StdString
  category : StdString
  deriving DecidableEq

/-! ## Exceptions -/

inductive ExceptionClass where
  | sdc | authentication | session | userHandling | message | log | contact
  deriving DecidableEq

def ExceptionClass.parent : ExceptionClass → Option ExceptionClass
  | .sdc => none
  | .authentication | .session => some .sdc
  | .userHandling | .message | .log | .contact => some .session

inductive IceError where
  | alreadyRegistered
  | objectNotExist
  | other
  deriving DecidableEq

inductive Fault where
  | raised (kind : ExceptionClass) (what : StdString)
  | soci (e : SociError)
  | ice (e : IceError)
  deriving DecidableEq

def Fault.isSessionException : Fault → Bool
  | .raised kind _ => kind = .session ∨ kind.parent = some .session
  | _ => false

abbrev AuthenticationException (what : StdString) : Fault := .raised .authentication what

abbrev UserHandlingException (what : StdString) : Fault := .raised .userHandling what

/-! ## Requests -/

structure SessionImpl where
  loggedIn : Bool
  user : User
  deriving DecidableEq

inductive Request where
  | sql (s : Statement)
  | callbackForID (callbackID : Identity)
  | echo (callbackID : Identity) (text : StdString)
  | exposeObject (session : SessionImpl)
  | setLoggedIn (value : Bool)
  | info (args : List StdString)

def Request.Reply : Request → Type
  | .sql s => Except SociError s.Fetched
  | .callbackForID _ => Except Fault Unit
  | .echo _ _ => Except Fault StdString
  | .exposeObject _ => Except Fault StdString
  | .setLoggedIn _ => Unit
  | .info _ => Unit

/-- The requests that the client of a call has to answer. -/
def Request.contacts : Request → Bool
  | .callbackForID _ | .echo _ _ => true
  | _ => false

abbrev Body (α : Type) := ExceptT Fault (Program Request Request.Reply) α

namespace Body

def ask (r : Request) : Body r.Reply :=
  ExceptT.lift (Program.ask r)

def orThrow {ε α : Type} (wrap : ε → Fault) (answer : Except ε α) : Body α :=
  match answer with
  | .ok value => pure value
  | .error e => throw (wrap e)

def sql (s : Statement) : Body s.Fetched := do
  orThrow .soci (← ask (.sql s))

/-- `CREATE TABLE IF NOT EXISTS users(id text, pw text, pubkey text)` -/
def createUsers : Body Unit := sql .createTable

/-- `SELECT ... FROM users WHERE id = :id` -/
def selectUser (id : StdString) : Body (Option Row) := sql (.select id)

/-- `INSERT INTO users(id, pw, pubkey) VALUES (:id, :pw, :pubkey)` -/
def insertUser (row : Row) : Body Unit := sql (.insert row)

/-- `DELETE FROM users WHERE id = :id` -/
def deleteUsers (id : StdString) : Body Unit := sql (.delete id)

def callbackForID (callbackID : Identity) : Body Unit := do
  orThrow id (← ask (.callbackForID callbackID))

def echo (callbackID : Identity) (text : StdString) : Body StdString := do
  orThrow id (← ask (.echo callbackID text))

def exposeObject (session : SessionImpl) : Body StdString := do
  orThrow id (← ask (.exposeObject session))

def setLoggedIn (value : Bool) : Body Unit :=
  ask (.setLoggedIn value)

def info (args : List StdString) : Body Unit :=
  ask (.info args)

end Body
end SecureChat
