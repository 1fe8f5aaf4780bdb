import Admission.Proofs.Json.OneLine
import Admission.Proofs.Server.Stream
import Admission.Proofs.Server.Untrusted

/-!
# Serving a stream

Every line that is not blank is answered in its turn, with one line. A line that is no message is answered
too, and changes nothing. Only bytes that are no text end the session before the input does.
-/

namespace Admission

/-! ## Lines -/

namespace Line

def isText : Line → Bool
  | .text _ => true
  | .unreadable => false

/-- What a line says, if it is a text that is not blank. -/
def said? : Line → Option String
  | .text content =>
    let content := Text.trim content
    if content == "" then none else some content
  | .unreadable => none

def isBlank : Line → Bool
  | .text content => Text.trim content == ""
  | .unreadable => false

end Line

/-- What is said before the first line that is no text. -/
def asked (lines : List Line) : List String := (lines.takeWhile Line.isText).filterMap Line.said?

theorem Line.isText_of_said? {line : Line} {said : String} (h : line.said? = some said) :
    line.isText = true := by
  cases line with
  | text content => rfl
  | unreadable => cases h

theorem asked_cons_said {line : Line} {said : String} (h : line.said? = some said)
    (lines : List Line) : asked (line :: lines) = said :: asked lines := by
  unfold asked
  rw [List.takeWhile_cons_of_pos (Line.isText_of_said? h), List.filterMap_cons_some h]

theorem asked_cons_blank {line : Line} (htext : line.isText = true) (h : line.said? = none)
    (lines : List Line) : asked (line :: lines) = asked lines := by
  unfold asked
  rw [List.takeWhile_cons_of_pos htext, List.filterMap_cons_none h]

theorem asked_length (lines : List Line) :
    (asked lines).length + (lines.dropWhile Line.isText).countP (fun line => !line.isBlank) =
      lines.countP fun line => !line.isBlank := by
  have hsaid : (asked lines).length =
      (lines.takeWhile Line.isText).countP fun line => !line.isBlank := by
    unfold asked
    rw [List.length_filterMap_eq_countP]
    refine List.countP_congr fun line hline => ?_
    cases line with
    | text content => simp [Line.said?, Line.isBlank]
    | unreadable => cases List.mem_takeWhile_imp hline
  rw [hsaid, ← List.countP_append, List.takeWhile_append_dropWhile]

theorem asked_length_eq_iff (lines : List Line) :
    (asked lines).length = lines.countP (fun line => !line.isBlank) ↔
      ∀ line ∈ lines, line.isText = true := by
  rw [← asked_length]
  constructor
  · intro hlength
    have hnone : (lines.dropWhile Line.isText).countP (fun line => !line.isBlank) = 0 := by omega
    refine List.dropWhile_eq_nil_iff.mp ?_
    cases hrest : lines.dropWhile Line.isText with
    | nil => rfl
    | cons line rest =>
      -- The line at which the texts end is no text, and so it is not blank.
      have hline := List.head?_dropWhile_not Line.isText lines
      rw [hrest] at hline hnone
      cases line with
      | text content => cases hline
      | unreadable =>
        rw [List.countP_cons_of_pos (by rfl)] at hnone
        cases hnone
  · intro hall
    rw [List.dropWhile_eq_nil_iff.mpr hall]
    rfl

/-! ## Replies -/

theorem Reply.newline_not_mem_text (reply : Reply Double) : '\n' ∉ reply.text.toList :=
  Json.newline_not_mem_compact _

theorem Reply.kind_badRequest_iff (reply : Reply Double) :
    reply.toJson.member? "kind" = some (.str "bad_request") ↔ reply = .badRequest := by
  cases reply with
  | refused refusal => cases refusal <;> simp [toJson, Json.member?, Refusal.kind]
  | verdict verdict => cases verdict <;> simp [toJson, Json.member?]
  | _ => simp [toJson, Json.member?]

namespace Server

variable (s : Server Double)

theorem handle_ne_badRequest (m : Moment) (message : Message Double) :
    (s.handle m message).1 ≠ .badRequest := by
  intro hreply
  cases message with
  | route caller channel complexity inputTokens maxOutput model =>
    rw [handle_route] at hreply
    generalize (s.controller.route m _).1 = result at hreply
    cases result <;> cases hreply
  | usage id input output =>
    simp only [handle] at hreply
    generalize s.controller.reportUsage m.time id input output = reported at hreply
    rcases reported with ⟨_ | cost, controller⟩ <;> cases hreply
  | release id => cases hreply
  | tool caller channel tool => cases hreply

def replies (s : Server Double) : List (Moment × String) → List (Reply Double)
  | [] => []
  | (m, line) :: rest => (s.answer m line).1 :: replies (s.answer m line).2 rest

theorem answer_of_noMessage (m : Moment) (line : String) (h : Message.ofText? line = none) :
    s.answer m line = (.badRequest, s) := by
  unfold answer
  rw [h]

theorem answer_badRequest_iff (m : Moment) (line : String) :
    (s.answer m line).1 = .badRequest ↔ Message.ofText? line = none := by
  refine ⟨fun hreply => ?_, fun h => by rw [s.answer_of_noMessage m line h]⟩
  cases hmessage : Message.ofText? line with
  | none => rfl
  | some message =>
    unfold answer at hreply
    rw [hmessage] at hreply
    exact absurd hreply (s.handle_ne_badRequest m message)

/-! ## One line -/

variable (session : Session) (box : Sandbox) {line : Line}

theorem moment_run :
    ∃ m box', (moment : SandboxM Moment) box = (m, box') ∧ box'.printed = box.printed :=
  ⟨_, _, rfl, rfl⟩

theorem takeLine_unreadable :
    (takeLine .unreadable session : SandboxM (Bool × Session)) box =
      ((false, { session with intact := false }), box) := rfl

theorem takeLine_blank (htext : line.isText = true) (h : line.said? = none) :
    (takeLine line session : SandboxM (Bool × Session)) box = ((true, session), box) := by
  cases line with
  | unreadable => cases htext
  | text content =>
    rw [Line.said?, ite_eq_left_iff] at h
    have hblank : (Text.trim content == "") = true := by
      by_contra hne
      cases h hne
    simp only [takeLine, hblank, if_true]
    rfl

theorem takeLine_said {said : String} (h : line.said? = some said) :
    ∃ m box', (takeLine line session : SandboxM (Bool × Session)) box =
        ((true, { session with
          server := (session.server.answer m said).2
          answered := session.answered + 1 }), box') ∧
      box'.printed = (session.server.answer m said).1.text :: box.printed := by
  obtain ⟨m, box', hmoment, hprinted⟩ := moment_run box
  cases line with
  | unreadable => cases h
  | text content =>
    rw [Line.said?, Option.ite_none_left_eq_some, Option.some.injEq] at h
    obtain ⟨hsome, rfl⟩ := h
    refine ⟨m, { box' with
      printed := (session.server.answer m (Text.trim content)).1.text :: box'.printed }, ?_, ?_⟩
    · simp only [takeLine, hsome, Bool.false_eq_true, if_false, bind, StateT.bind, hmoment]
      rfl
    · simp only [hprinted]

/-! ## The whole stream -/

theorem feed_cons_more {σ : Type} {step : Line → σ → SandboxM (Bool × σ)} {state state' : σ}
    {box box' : Sandbox} (h : step line state box = ((true, state'), box')) (lines : List Line) :
    SandboxM.feed step (line :: lines) state box = SandboxM.feed step lines state' box' := by
  simp only [SandboxM.feed, bind, StateT.bind, h]
  rfl

theorem feed_cons_last {σ : Type} {step : Line → σ → SandboxM (Bool × σ)} {state state' : σ}
    {box box' : Sandbox} (h : step line state box = ((false, state'), box')) (lines : List Line) :
    SandboxM.feed step (line :: lines) state box = (state', box') := by
  simp only [SandboxM.feed, bind, StateT.bind, h]
  rfl

/-- What a session has come to that began with this server and heard these texts. -/
structure Answers (session : Session) (printed : List String) (heard : List (Moment × String))
    (session' : Session) (printed' : List String) : Prop where
  server : session'.server = session.server.after heard
  answered : session'.answered = session.answered + heard.length
  printed : printed' = ((session.server.replies heard).map Reply.text).reverse ++ printed

theorem feed_takeLine (lines : List Line) (session : Session) (box : Sandbox) :
    ∃ moments : List Moment, moments.length = (asked lines).length ∧
      Answers session box.printed (moments.zip (asked lines))
        (SandboxM.feed takeLine lines session box).1
        (SandboxM.feed takeLine lines session box).2.printed ∧
      ((SandboxM.feed takeLine lines session box).1.intact = true ↔
        session.intact = true ∧ ∀ line ∈ lines, line.isText = true) := by
  -- Every line leaves a session and a machine from which the other lines are served.
  induction lines generalizing session box with
  | nil => exact ⟨[], rfl, ⟨rfl, rfl, rfl⟩, by simp [SandboxM.feed, pure, StateT.pure]⟩
  | cons line lines ih =>
    cases hsaid : line.said? with
    | some said =>
      obtain ⟨m, box', hline, hprinted⟩ := takeLine_said session box hsaid
      obtain ⟨moments, hlength, hrest, hintact⟩ := ih
        { session with
          server := (session.server.answer m said).2
          answered := session.answered + 1 } box'
      rw [feed_cons_more hline, asked_cons_said hsaid]
      refine ⟨m :: moments, congrArg Nat.succ hlength, ⟨hrest.server, ?_, ?_⟩, ?_⟩
      · rw [hrest.answered, List.zip_cons_cons, List.length_cons]
        exact Nat.add_right_comm _ 1 _
      · rw [hrest.printed, hprinted, List.zip_cons_cons, replies, List.map_cons, List.reverse_cons,
          List.append_assoc]
        rfl
      · rw [hintact, List.forall_mem_cons]
        simp [Line.isText_of_said? hsaid]
    | none =>
      cases line with
      | unreadable =>
        rw [feed_cons_last (takeLine_unreadable session box)]
        exact ⟨[], rfl, ⟨rfl, rfl, rfl⟩, by simp [Line.isText]⟩
      | text content =>
        obtain ⟨moments, hlength, hrest, hintact⟩ := ih session box
        rw [feed_cons_more (takeLine_blank session box rfl hsaid), asked_cons_blank rfl hsaid]
        refine ⟨moments, hlength, hrest, ?_⟩
        rw [hintact, List.forall_mem_cons]
        simp [Line.isText]

/-- The texts of a stream are answered in their order with one line each, to the end of the stream if all of
it is text. A line is answered as a bad request if and only if it is no message, and then nothing changes. -/
theorem serve_stream (s : Server Double) (box : Sandbox) (bytes : List UInt8) :
    let lines := Stream.lines bytes
    let result := (serve s : SandboxM Session) { box with input := lines }
    (∃ moments : List Moment, moments.length = (asked lines).length ∧
      Answers { server := s } box.printed (moments.zip (asked lines)) result.1 result.2.printed) ∧
    ((∀ line ∈ lines, line.isText = true) → asked lines = lines.filterMap Line.said?) ∧
    (result.1.answered = lines.countP (fun line => !line.isBlank) ↔
      ∀ line ∈ lines, line.isText = true) ∧
    (result.1.intact = true ↔ ∀ line ∈ lines, line.isText = true) ∧
    (∀ reply : Reply Double, '\n' ∉ reply.text.toList) ∧
    ∀ (now : Server Double) (m : Moment) (text : String),
      ((now.answer m text).1.toJson.member? "kind" = some (.str "bad_request") ↔
        Message.ofText? text = none) ∧
      (Message.ofText? text = none → (now.answer m text).2 = now) := by
  intro lines result
  have hresult : result = SandboxM.feed takeLine lines { server := s } { box with input := [] } := rfl
  obtain ⟨moments, hlength, hanswers, hintact⟩ :=
    feed_takeLine lines { server := s } { box with input := [] }
  rw [← hresult] at hanswers hintact
  refine ⟨⟨moments, hlength, hanswers⟩, ?_, ?_, ?_, Reply.newline_not_mem_text, ?_⟩
  · intro hall
    unfold asked
    rw [List.takeWhile_eq_self_iff.mpr hall]
  · have hanswered : result.1.answered = (asked lines).length := by
      rw [hanswers.answered, List.length_zip, hlength, Nat.min_self]
      exact Nat.zero_add _
    rw [hanswered]
    exact asked_length_eq_iff lines
  · exact hintact.trans (and_iff_right rfl)
  · intro now m text
    refine ⟨?_, fun h => by rw [now.answer_of_noMessage m text h]⟩
    rw [Reply.kind_badRequest_iff, answer_badRequest_iff]

def cutShort : List UInt8 := [0xff, 10] ++ Stream.bytesOf ['j', 'u', 'n', 'k', '\n']

theorem serve_stream_cutShort :
    let lines := Stream.lines cutShort
    let result := (serve openDoors : SandboxM Session) { input := lines }
    lines.countP (fun line => !line.isBlank) = 2 ∧ result.1.answered = 0 ∧ result.2.printed = [] := by
  decide +kernel

end Server

end Admission
