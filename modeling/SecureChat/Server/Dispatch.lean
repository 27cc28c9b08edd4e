import SecureChat.Library.Machine
import SecureChat.Server.Authentication
import SecureChat.Server.Session

/-!
# The server handling one call after the other

The world of the server is its database and the session objects that its adapter exposes. A call
arrives with what the run time supplies for it: the connection to the calling client, which
decides the answers of the client's callback, and the UUID that an exposed object is named with.
-/

namespace SecureChat
open Library

structure Connection where
  checkedCast : Identity → Except Fault Unit
  echo : Identity → StdString → Except Fault StdString

inductive Operation where
  | registerUser (u : User) (pw : StdString)
  | login (u : User) (pw : StdString) (callbackID : Identity) (con : Connection) (uuid : StdString)
  | invoke (uuid : StdString) (m : SessionMethod)

structure World where
  users : Users
  servants : StdString → Option SessionImpl

namespace World

def empty : World := ⟨none, fun _ => none⟩

def setUsers (w : World) (users : Users) : World :=
  { w with users }

def setServant (w : World) (uuid : StdString) (session : Option SessionImpl) : World :=
  { w with servants := Function.update w.servants uuid session }

/-- The world after `CREATE TABLE IF NOT EXISTS`. -/
def opened (w : World) : World := w.setUsers (some w.users.rows)

variable (w : World) (users : Users) (uuid : StdString) (session : Option SessionImpl)

@[simp] theorem setUsers_setUsers (later : Users) :
    (w.setUsers users).setUsers later = w.setUsers later := rfl
@[simp] theorem setUsers_users : (w.setUsers users).users = users := rfl
@[simp] theorem setUsers_servants : (w.setUsers users).servants = w.servants := rfl
@[simp] theorem setServant_users : (w.setServant uuid session).users = w.users := rfl
@[simp] theorem setServant_servants (other : StdString) : (w.setServant uuid session).servants other =
    if other = uuid then session else w.servants other := Function.update_apply ..

end World

section
variable [Storage]

namespace Operation

def con : Operation → Connection
  | .login _ _ _ con _ => con
  | _ => ⟨fun _ => .error (.ice .other), fun _ _ => .error (.ice .other)⟩

def uuid : Operation → StdString
  | .registerUser _ _ => []
  | .login _ _ _ _ uuid => uuid
  | .invoke uuid _ => uuid

def answer (op : Operation) : (r : Request) → World → r.Reply × World
  | .sql s, w => ((s.execute w.users).1, w.setUsers (s.execute w.users).2)
  | .callbackForID callbackID, w => (op.con.checkedCast callbackID, w)
  | .echo callbackID text, w => (op.con.echo callbackID text, w)
  | .exposeObject session, w =>
      if (w.servants op.uuid).isSome then (.error (.ice .alreadyRegistered), w)
      else (.ok op.uuid, w.setServant op.uuid (some session))
  | .setLoggedIn value, w =>
      ((), w.setServant op.uuid ((w.servants op.uuid).map fun session => { session with loggedIn := value }))
  | .info _, w => ((), w)

def body (op : Operation) (w : World) : Body Value :=
  match op with
  | .registerUser u pw => do AuthenticationImpl.registerUser u pw; return .void
  | .login u pw callbackID _ _ => return .proxy (← AuthenticationImpl.login u pw callbackID)
  | .invoke uuid m =>
      match w.servants uuid with
      | none => throw (.ice .objectNotExist)
      | some session => session.invoke m

end Operation

abbrev Result := Except Fault Value

def perform (op : Operation) (w : World) : Result × World :=
  Program.exec op.answer (op.body w) w

end
end SecureChat
