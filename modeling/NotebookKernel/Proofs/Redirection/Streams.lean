import Mathlib.Data.List.TakeWhile
import NotebookKernel.Outlet
import NotebookKernel.Proofs.Json.Fields
import NotebookKernel.Redirection.Rehearsal

namespace NotebookKernel

open Json

namespace Execution

variable {α β : Type}

/-- One run, and then another one that knows the result of the first. -/
def bind : Execution α → (α → Execution β) → Execution β
  | done a, f => f a
  | publish msgType content next, f => publish msgType content (next.bind f)
  | ask prompt password next, f => ask prompt password fun answer => (next answer).bind f

/-- Publishes messages, given by type and content, and comes to the result. -/
def publishing (ms : List (String × Value)) (a : α) : Execution α :=
  ms.foldr (fun m next => publish m.1 m.2 next) (done a)

theorem map_publishing (ms : List (String × Value)) (a : α) (f : α → β) :
    (publishing ms a).map f = publishing ms (f a) := by
  induction ms with
  | nil => rfl
  | cons m ms ih => exact congrArg (publish m.1 m.2) ih

theorem bind_publishing (ms ms' : List (String × Value)) (a : α) (b : β) {f : α → Execution β}
    (h : f a = publishing ms' b) : (publishing ms a).bind f = publishing (ms ++ ms') b := by
  induction ms with
  | nil => exact h
  | cons m ms ih => exact congrArg (publish m.1 m.2) ih

theorem rehearse_publishing (ms : List (String × Value)) (a : α)
    (answers : List (Except Failure String)) :
    (publishing ms a).rehearse answers = ⟨a, [], ms, answers⟩ := by
  induction ms with
  | nil => rfl
  | cons m ms ih =>
    have hpublish : publishing (m :: ms) a = publish m.1 m.2 (publishing ms a) := rfl
    rw [hpublish, rehearse, ih]

theorem perform_publishing {σ : Type} (o : Outlet σ) (parent : Header) (mayAsk : Bool)
    (ms : List (String × Value)) (a : α) (l : Link σ) :
    o.perform parent mayAsk (publishing ms a) l =
      (a, ms.foldl (fun l m => o.publish parent m.1 m.2 l) l) := by
  induction ms generalizing l with
  | nil => rfl
  | cons m ms ih => exact ih (o.publish parent m.1 m.2 l)

end Execution

namespace Argument

/-- A text that messages can carry is not refused. -/
theorem encodable_points (text : String) : encodable (points text) = .ok text := by
  have hplain : ∀ n ∈ points text, (!isSurrogate n) = true := by
    intro n hn
    obtain ⟨c, -, rfl⟩ := List.mem_map.1 hn
    have hvalid : c.toNat < 0xD800 ∨ 0xDFFF < c.toNat ∧ c.toNat < 0x110000 := c.valid
    simp only [isSurrogate, Bool.not_eq_true', Bool.and_eq_false_iff, decide_eq_false_iff_not]
    omega
  have hchars : (points text).map Char.ofNat = text.toList := by
    rw [points, Quoted.points, List.map_map]
    exact (List.map_congr_left fun c _ => c.ofNat_toNat).trans (List.map_id' _)
  rw [encodable, List.dropWhile_eq_nil_iff.2 hplain, hchars, String.ofList_toList]

theorem mapM_asText (lines : List String) :
    (lines.map fun line => text (points line)).mapM asText = .ok lines := by
  induction lines with
  | nil => rfl
  | cons line lines ih =>
    rw [List.map_cons, List.mapM_cons, ih, asText, encodable_points]
    rfl

end Argument

namespace Stream

/-- The place in which a redirection of output puts the stream. -/
def entry : Stream → EntryPoint
  | stdout => .stdout
  | stderr => .stderr

/-- What writing a text publishes, if anything. -/
def messages (s : Stream) (text : String) : List (String × Value) :=
  if text = "" then [] else [("stream", streamContent s.name text)]

theorem write_eq (s : Stream) (text : String) :
    s.write text = .publishing (s.messages text) text.length := by
  rw [write, messages]
  split <;> rfl

/-- A call by which user code writes to a stream. -/
inductive Writing where
  | write (stream : Stream) (text : String)
  | writeLines (stream : Stream) (lines : List String)
  deriving DecidableEq, Repr

namespace Writing

def stream : Writing → Stream
  | write s _ => s
  | writeLines s _ => s

/-- All that is passed. -/
def text : Writing → String
  | write _ text => text
  | writeLines _ lines => String.join lines

/-- A text is answered by the number of its code points. -/
def answer : Writing → Value
  | write _ text => .ofNat (Argument.points text).length
  | writeLines _ _ => .null

def call : Writing → Execution (Except Raised Value)
  | write s text => s.call "write" [.text (Argument.points text)]
  | writeLines s lines =>
    s.call "writelines" [.list (lines.map fun line => .text (Argument.points line))]

/-- The calls one after the other, with all that they answer. -/
def calls : List Writing → Execution (List (Except Raised Value))
  | [] => .done []
  | w :: rest => w.call.bind fun answer => (calls rest).map (answer :: ·)

theorem call_eq (w : Writing) :
    w.call = .publishing (w.stream.messages w.text) (.ok w.answer) := by
  cases w with
  | write s text =>
    have hcall : (write s text).call = s.run .write [.text (Argument.points text)] := rfl
    have hlength : text.length = (Argument.points text).length := by
      rw [Argument.points, Quoted.points, List.length_map, String.length_toList]
    rw [hcall, Stream.run, Argument.asText, Argument.encodable_points]
    simp only [write_eq, Execution.map_publishing, hlength]
    rfl
  | writeLines s lines =>
    have hcall : (writeLines s lines).call =
        s.run .writeLines [.list (lines.map fun line => .text (Argument.points line))] := rfl
    rw [hcall, Stream.run, Argument.mapM_asText]
    simp only [Stream.writeLines, write_eq, Execution.map_publishing]
    rfl

theorem calls_eq (ws : List Writing) :
    calls ws = .publishing (ws.flatMap fun w => w.stream.messages w.text)
      (ws.map fun w => .ok w.answer) := by
  induction ws with
  | nil => rfl
  | cons w ws ih =>
    rw [calls, call_eq, List.flatMap_cons]
    apply Execution.bind_publishing
    rw [ih, Execution.map_publishing, List.map_cons]

end Writing

/-- The text of a message of the streams that bears the name. -/
def shown? (name : String) (message : String × Value) : Option String :=
  if message.1 = "stream" ∧ (message.2.get? "name").bind Value.asString? = some name then
    (message.2.get? "text").bind Value.asString?
  else none

theorem get?_streamContent (name text : String) :
    (streamContent name text).get? "name" = some (.string name) ∧
      (streamContent name text).get? "text" = some (.string text) := by
  have hafter : "name" ∉ ["text"] := by decide
  exact ⟨Value.get?_ofFields_append_cons hafter [] _,
    Value.get?_ofFields_concat [("name", .string name)] _ _⟩

theorem shown?_streamContent (name other text : String) :
    shown? name ("stream", streamContent other text) = if other = name then some text else none := by
  obtain ⟨hname, htext⟩ := get?_streamContent other text
  simp only [shown?, hname, htext, Option.bind_some, Value.asString?, true_and, Option.some.injEq]

theorem name_inj {s t : Stream} : s.name = t.name ↔ s = t := by
  cases s <;> cases t <;> decide

theorem shown_messages (s t : Stream) (text : String) :
    String.join ((t.messages text).filterMap (shown? s.name)) = if t = s then text else "" := by
  rw [messages]
  by_cases htext : text = ""
  · rw [if_pos htext, htext, ite_self]
    rfl
  · rw [if_neg htext, List.filterMap_cons, shown?_streamContent]
    by_cases hst : t = s
    · rw [if_pos hst, if_pos (name_inj.2 hst)]
      change String.join [text] = text
      rw [String.join_cons, String.join_nil, String.append_empty]
    · rw [if_neg hst, if_neg (mt name_inj.1 hst)]
      rfl

/-- What is shown of a stream is what was written to it, whatever was written to the other one in between. -/
theorem shown_written (s : Stream) (ws : List Writing) :
    String.join ((ws.flatMap fun w => w.stream.messages w.text).filterMap (shown? s.name)) =
      String.join ((ws.filter (·.stream = s)).map Writing.text) := by
  induction ws with
  | nil => rfl
  | cons w ws ih =>
    rw [List.flatMap_cons, List.filterMap_append, String.join_append, shown_messages, ih,
      List.filter_cons]
    by_cases hstream : w.stream = s
    · rw [if_pos hstream, if_pos (decide_eq_true hstream), List.map_cons, String.join_cons]
    · rw [if_neg hstream, if_neg (by simpa using hstream), String.empty_append]

/-- Any calls that write to the two streams of a redirection publish all that is passed to each of them and
nothing else, in the order of the calls, by at most one message for each call and none without text. A
text is answered by the number of its code points. A kernel that carries the calls out publishes these
messages for its cell. -/
theorem streams_complete (ws : List Writing) (answers : List (Except Failure String)) :
    let r := (Writing.calls ws).rehearse answers
    (∀ s : Stream, String.join (r.published.filterMap (shown? s.name)) =
      String.join ((ws.filter (·.stream = s)).map Writing.text)) ∧
    r.published = ws.flatMap (fun w => (w.call.rehearse answers).published) ∧
    (∀ w ∈ ws, (w.call.rehearse answers).published =
      if w.text = "" then [] else [("stream", streamContent w.stream.name w.text)]) ∧
    (∀ m ∈ r.published, ∃ text, m.2.get? "text" = some (.string text) ∧ text ≠ "") ∧
    r.result = ws.map (fun w => .ok w.answer) ∧ r.asked = [] ∧ r.left = answers ∧
    (∀ {σ : Type} (o : Outlet σ) (parent : Header) (mayAsk : Bool) (l : Link σ),
      o.perform parent mayAsk (Writing.calls ws) l =
        (r.result, r.published.foldl (fun l m => o.publish parent m.1 m.2 l) l)) ∧
    ∀ (b : Redirection.Bindings) (s : Stream),
      ((Redirection.installOutput.run b).2.holds s.entry).kind = .stream s := by
  intro r
  have hr : r = ⟨ws.map fun w => .ok w.answer, [],
      ws.flatMap fun w => w.stream.messages w.text, answers⟩ := by
    simp only [r, Writing.calls_eq, Execution.rehearse_publishing]
  have hcall (w : Writing) : (w.call.rehearse answers).published = w.stream.messages w.text := by
    rw [Writing.call_eq, Execution.rehearse_publishing]
  rw [hr]
  refine ⟨fun s => shown_written s ws, ?_, fun w _ => hcall w, ?_, rfl, rfl, rfl, ?_, ?_⟩
  · simp only [hcall]
  · intro m hm
    obtain ⟨w, -, hmessage⟩ := List.mem_flatMap.1 hm
    obtain ⟨htext, rfl⟩ : w.text ≠ "" ∧ m = ("stream", streamContent w.stream.name w.text) := by
      simpa only [messages, List.mem_ite_nil_left, List.mem_singleton] using hmessage
    exact ⟨w.text, (get?_streamContent w.stream.name w.text).2, htext⟩
  · intro σ o parent mayAsk l
    rw [Writing.calls_eq, Execution.perform_publishing]
  · intro b s
    cases s <;> rfl

/-- An empty text and lines that come to no text are not published. -/
theorem streams_complete_interleaved :
    let ws : List Writing := [.write .stdout "né", .writeLines .stderr ["a", "", "b\n"],
      .write .stderr "", .writeLines .stdout ["", ""], .write .stdout "!"]
    let r := (Writing.calls ws).rehearse []
    String.join (r.published.filterMap (shown? "stdout")) = "né!" ∧
    String.join (r.published.filterMap (shown? "stderr")) = "ab\n" ∧
    ((Writing.writeLines .stdout ["", ""]).call.rehearse []).published = [] ∧
    (∀ m ∈ r.published, ∃ text, m.2.get? "text" = some (.string text) ∧ text ≠ "") ∧
    r.result = [.ok (.ofNat 2), .ok .null, .ok (.ofNat 0), .ok .null, .ok (.ofNat 1)] := by
  intro ws r
  obtain ⟨hshown, -, hcalls, htexts, hresult, -⟩ := streams_complete ws []
  have hempty : (Writing.writeLines .stdout ["", ""]).text = "" := by decide
  refine ⟨(hshown .stdout).trans (by decide), (hshown .stderr).trans (by decide), ?_, htexts, ?_⟩
  · rw [hcalls (.writeLines .stdout ["", ""]) (by decide), if_pos hempty]
  · have htwo : (Argument.points "né").length = 2 := by decide
    have hnone : (Argument.points "").length = 0 := by decide
    have hone : (Argument.points "!").length = 1 := by decide
    rw [hresult]
    simp only [ws, List.map_cons, List.map_nil, Writing.answer, htwo, hnone, hone]

end Stream

end NotebookKernel
