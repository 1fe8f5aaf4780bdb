import Admission.Controller
import Admission.Machine
import Admission.Server.Message
import Admission.Server.Reply

/-!
# The server

Lines of input are answered one after the other by one controller. Who is trusted is decided by the
channel alone: nothing in a line can claim it.
-/

namespace Admission

structure Server (α : Type) where
  controller : Controller α
  /-- The channels whose callers somebody else has authenticated. -/
  trustedChannels : List String

namespace Server

variable {α : Type} [Amount α]

def identity (s : Server α) (caller channel : String) : Identity :=
  ⟨caller, channel, s.trustedChannels.contains channel⟩

variable [Recordable α]

def handle (s : Server α) (m : Moment) : Message α → Reply α × Server α
  | .route caller channel complexity inputTokens maxOutput model =>
    let request : Request α :=
      { identity := s.identity caller channel, complexity, inputTokens
        maxOutputTokens := maxOutput, requestedModel := model }
    match s.controller.route m request with
    | (.ok decision, controller) => (.admitted decision, { s with controller })
    | (.error refusal, controller) => (.refused refusal, { s with controller })
  | .usage id inputTokens outputTokens =>
    match s.controller.reportUsage m.time id inputTokens outputTokens with
    | (some cost, controller) => (.settled cost, { s with controller })
    | (none, controller) => (.unknownReservation, { s with controller })
  | .release id =>
    let (done, controller) := s.controller.release m.time id
    (.released done, { s with controller })
  | .tool caller channel tool =>
    let (verdict, controller) :=
      s.controller.authorizeTool m.time (s.identity caller channel) tool
    (.verdict verdict, { s with controller })

omit [Amount α] [Recordable α] in
def answer (s : Server Double) (m : Moment) (line : String) : Reply Double × Server Double :=
  match Message.ofText? line with
  | some message => s.handle m message
  | none => (.badRequest, s)

/-- How serving stands: the server, the lines answered so far, and whether all input was text. -/
structure Session where
  server : Server Double
  answered : Nat := 0
  intact : Bool := true

variable {m : Type → Type} [Monad m] [Machine m]

def moment : m Moment := do
  return ⟨← Machine.now, ← Machine.instant, ← Machine.freshId, ← Machine.dice⟩

/-- Take one line. Blank lines are passed over; bytes that are no text end the session. -/
def takeLine (line : Line) (session : Session) : m (Bool × Session) :=
  match line with
  | .unreadable => return (false, { session with intact := false })
  | .text content => do
    let content := Text.trim content
    if content == "" then return (true, session)
    let (reply, server) := session.server.answer (← moment) content
    Machine.printLine reply.text
    return (true, { session with server, answered := session.answered + 1 })

def serve (s : Server Double) : m Session := Machine.eachLine { server := s } takeLine

end Server

end Admission
