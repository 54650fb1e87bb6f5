import Gvs.GuardedRuns
import Gvs.Server
import Mathlib.Data.List.TakeWhile

/-!
# Message clients

The streams of messages and the program `message_client` that reads words and
sends each of them. Any number of clients take turns at one server. A send
takes what was streamed since the one before it, also when its call fails, and
a connection or a call that fails is reported on the terminal of its client.
-/

set_option autoImplicit false

namespace GVS.MessageClients
open GVS.Proto GVS.Server GuardedRuns

section Streams

structure MessageStream where
  stub : Bool
  message : Message
  contentStream : String := ""

def failedToConnect (serverAddress : String) : String :=
  "Failed to connect to " ++ serverAddress ++ ". No messages will be sent."

def messageStream (stub : Bool) (serverAddress identifier : String) :
    MessageStream × List String :=
  ({ stub, message := ⟨identifier, ""⟩ }, if stub then [] else [failedToConnect serverAddress])

/-- `operator<<` with data, which is given as the text that it is printed as. -/
def shiftLeft (s : MessageStream) (data : String) : MessageStream :=
  if s.stub then { s with contentStream := s.contentStream ++ data } else s

/-- What becomes of a call: it does not reach the server, it reaches the server
and ends with a status that is not OK, or it is answered. -/
inductive Call where
  | lost (errorMessage : String)
  | cut (errorMessage : String)
  | answered

def Call.arrives : Call → Bool
  | .lost _ => false
  | .cut _ | .answered => true

def send (s : MessageStream) : MessageStream × Option Message :=
  if s.stub then
    let message := { s.message with contents := s.contentStream }
    ({ s with message, contentStream := "" }, some message)
  else (s, none)

def report (call : Call) (errors : Errors) : List String :=
  match call with
  | .lost errorMessage | .cut errorMessage => ["Error sending message: " ++ errorMessage]
  | .answered =>
    if errors.errorMsg.isEmpty then [] else ["Error sending message: " ++ errors.errorMsg]

end Streams

section Chats

inductive Operation where
  | shift (data : String)
  | send (call : Call)

/-- A server and its clients. Who has sent the messages of the server is noted
for the statements only. -/
structure Chat where
  server : SceneServer := {}
  streams : ℕ → MessageStream
  cerr : ℕ → List String := fun _ => []
  said : List (ℕ × Message) := []

def deliver (c : Chat) (k : ℕ) (message : Message) (call : Call) : Chat :=
  match call.arrives with
  | true =>
    let answer := requestSendMessage c.server message
    { c with
      server := answer.1
      cerr := Function.update c.cerr k (c.cerr k ++ report call answer.2)
      said := c.said ++ [(k, message)] }
  | false => { c with cerr := Function.update c.cerr k (c.cerr k ++ report call {}) }

def turn (c : Chat) : ℕ × Operation → Chat
  | (k, .shift data) =>
    { c with streams := Function.update c.streams k (shiftLeft (c.streams k) data) }
  | (k, .send call) =>
    let sent := MessageClients.send (c.streams k)
    let c := { c with streams := Function.update c.streams k sent.1 }
    match sent.2 with
    | none => c
    | some message => deliver c k message call

def ofClient {α : Type*} (k : ℕ) (turns : List (ℕ × α)) : List α :=
  (turns.filter fun turn => turn.1 == k).map Prod.snd

/-- The messages of a client with a stub: each arriving send has what was
streamed since the send before it. -/
def spoken (identifier : String) : String → List Operation → List Message
  | _, [] => []
  | text, .shift data :: ops => spoken identifier (text ++ data) ops
  | text, .send call :: ops =>
    (if call.arrives then [⟨identifier, text⟩] else []) ++ spoken identifier "" ops

def complaints : List Operation → List String
  | [] => []
  | .shift _ :: ops => complaints ops
  | .send call :: ops => report call {} ++ complaints ops

structure Client where
  stream : MessageStream
  said : List Message
  cerr : List String

def client (c : Chat) (k : ℕ) : Client := ⟨c.streams k, ofClient k c.said, c.cerr k⟩

def speak (x : Client) : Operation → Client
  | .shift data => { x with stream := shiftLeft x.stream data }
  | .send call =>
    let sent := MessageClients.send x.stream
    match sent.2 with
    | none => { x with stream := sent.1 }
    | some message =>
      { stream := sent.1
        said := if call.arrives then x.said ++ [message] else x.said
        cerr := x.cerr ++ report call {} }

theorem ofClient_self {α : Type*} (k : ℕ) (x : α) (xs : List (ℕ × α)) :
    ofClient k ((k, x) :: xs) = x :: ofClient k xs := by
  simp [ofClient]

theorem ofClient_other {α : Type*} {j k : ℕ} (h : j ≠ k) (x : α) (xs : List (ℕ × α)) :
    ofClient k ((j, x) :: xs) = ofClient k xs := by
  simp [ofClient, h]

theorem client_turn_self (c : Chat) (k : ℕ) (op : Operation) :
    client (turn c (k, op)) k = speak (client c k) op := by
  cases op with
  | shift data => simp [client, turn, speak]
  | send call =>
    cases hsent : (MessageClients.send (c.streams k)).2 with
    | none => simp [client, turn, speak, hsent]
    | some message =>
      cases hcall : call.arrives <;>
        simp [client, turn, speak, deliver, hsent, hcall, requestSendMessage, ofClient]

theorem client_turn_other (c : Chat) {j k : ℕ} (h : j ≠ k) (op : Operation) :
    client (turn c (j, op)) k = client c k := by
  cases op with
  | shift data => simp [client, turn, Ne.symm h]
  | send call =>
    cases hsent : (MessageClients.send (c.streams j)).2 with
    | none => simp [client, turn, hsent, Ne.symm h]
    | some message =>
      cases hcall : call.arrives <;>
        simp [client, turn, deliver, hsent, hcall, requestSendMessage, ofClient, h,
          Ne.symm h]

/-- A client is as it is without the others. -/
theorem client_run (c : Chat) (turns : List (ℕ × Operation)) (k : ℕ) :
    client (run turn c turns) k = run speak (client c k) (ofClient k turns) := by
  induction turns generalizing c with
  | nil => rfl
  | cons x turns ih =>
    obtain ⟨j, op⟩ := x
    rw [run, ih]
    by_cases h : j = k
    · subst h
      rw [client_turn_self, ofClient_self, run]
    · rw [client_turn_other c h, ofClient_other h]

theorem run_speak_stub (x : Client) (hstub : x.stream.stub = true) (ops : List Operation) :
    (run speak x ops).said = x.said ++
        spoken x.stream.message.identifier x.stream.contentStream ops ∧
      (run speak x ops).cerr = x.cerr ++ complaints ops := by
  induction ops generalizing x with
  | nil => simp [run, spoken, complaints]
  | cons op ops ih =>
    cases op with
    | shift data =>
      have hrest := ih (speak x (.shift data)) (by simp [speak, shiftLeft, hstub])
      simpa [run, speak, shiftLeft, hstub, spoken, complaints] using hrest
    | send call =>
      have hrest := ih (speak x (.send call)) (by simp [speak, MessageClients.send, hstub])
      cases hcall : call.arrives <;>
        simpa [run, speak, MessageClients.send, hstub, hcall, spoken, complaints] using hrest

theorem run_speak_noStub (x : Client) (hstub : x.stream.stub = false) (ops : List Operation) :
    run speak x ops = x := by
  induction ops with
  | nil => rfl
  | cons op ops ih =>
    have hsame : speak x op = x := by
      cases op <;> simp [speak, shiftLeft, MessageClients.send, hstub]
    rw [run, hsame, ih]

def Heard (c : Chat) : Prop :=
  c.server.messages = c.said.map Prod.snd ∧ c.server.messageStream = c.said.map Prod.snd

theorem heard_turn (c : Chat) (x : ℕ × Operation) (h : Heard c) : Heard (turn c x) := by
  obtain ⟨k, op⟩ := x
  cases op with
  | shift data => exact h
  | send call =>
    cases hsent : (MessageClients.send (c.streams k)).2 with
    | none => simpa [Heard, turn, hsent] using h
    | some message =>
      cases hcall : call.arrives <;>
        simpa [Heard, turn, deliver, hsent, hcall, requestSendMessage] using h

def opened (stubs : ℕ → Bool) (addresses names : ℕ → String) : Chat where
  streams := fun k => (messageStream (stubs k) (addresses k) (names k)).1
  cerr := fun k => (messageStream (stubs k) (addresses k) (names k)).2

theorem heard_run (stubs : ℕ → Bool) (addresses names : ℕ → String)
    (turns : List (ℕ × Operation)) : Heard (run turn (opened stubs addresses names) turns) :=
  run_invariant turn heard_turn ⟨rfl, rfl⟩ turns

theorem said_of_stub {stubs : ℕ → Bool} (addresses names : ℕ → String)
    (turns : List (ℕ × Operation)) {k : ℕ} (hstub : stubs k = true) :
    let c := run turn (opened stubs addresses names) turns
    ofClient k c.said = spoken (names k) "" (ofClient k turns) ∧
      c.cerr k = complaints (ofClient k turns) := by
  have hclient := client_run (opened stubs addresses names) turns k
  have hquiet : (opened stubs addresses names).cerr k = [] := by
    simp [opened, messageStream, hstub]
  obtain ⟨hspoken, hcomplaints⟩ :=
    run_speak_stub (client (opened stubs addresses names) k) hstub (ofClient k turns)
  rw [← hclient] at hspoken hcomplaints
  exact ⟨hspoken, hcomplaints.trans (by rw [client, hquiet, List.nil_append])⟩

/-- However the clients take turns: the history and the stream of the server
are the messages that arrived, and those of one client are its own streamed
texts in its own order, whatever the others do; a send that is not among them
is reported to its client. A client without a connection is told so once, and
says nothing. -/
theorem each_client_heard (stubs : ℕ → Bool) (addresses names : ℕ → String)
    (turns : List (ℕ × Operation)) :
    let c := run turn (opened stubs addresses names) turns
    Heard c ∧ ∀ k,
      (stubs k = true → ofClient k c.said = spoken (names k) "" (ofClient k turns) ∧
        c.cerr k = complaints (ofClient k turns)) ∧
      (stubs k = false → ofClient k c.said = [] ∧ c.cerr k = [failedToConnect (addresses k)]) := by
  refine ⟨heard_run stubs addresses names turns,
    fun k => ⟨said_of_stub addresses names turns, fun hstub => ?_⟩⟩
  have hclient := client_run (opened stubs addresses names) turns k
  rw [run_speak_noStub (client (opened stubs addresses names) k) hstub] at hclient
  have htold : (opened stubs addresses names).cerr k = [failedToConnect (addresses k)] := by
    simp [opened, messageStream, hstub]
  exact ⟨congrArg Client.said hclient, (congrArg Client.cerr hclient).trans htold⟩

end Chats

section Words

def isSpace (c : Char) : Bool := c.toNat == 32 || (9 ≤ c.toNat && c.toNat ≤ 13)

def wordOf (text : List Char) : List Char := text.takeWhile fun c => !isSpace c

def afterWord (text : List Char) : List Char := text.dropWhile fun c => !isSpace c

structure Input where
  rest : List Char
  good : Bool := true

/-- `std::cin >> input`. At the end of the input the stream fails before it
touches the string; a word that ends there is read and leaves it not good. -/
def extract (cin : Input) (input : List Char) : Input × List Char :=
  if cin.good then
    match cin.rest.dropWhile isSpace with
    | [] => (⟨[], false⟩, input)
    | c :: cs => (⟨afterWord (c :: cs), !(afterWord (c :: cs)).isEmpty⟩, wordOf (c :: cs))
  else (cin, input)

theorem head_dropWhile {p : Char → Bool} {cs rest : List Char} {c : Char}
    (h : cs.dropWhile p = c :: rest) : p c = false := by
  have hhead := List.head?_dropWhile_not p cs
  rw [h] at hhead
  simpa using hhead

theorem afterWord_shorter {text cs : List Char} {c : Char}
    (h : text.dropWhile isSpace = c :: cs) : (afterWord (c :: cs)).length < text.length := by
  have hc := head_dropWhile h
  have hafter : afterWord (c :: cs) = cs.dropWhile fun c => !isSpace c := by
    simp [afterWord, hc]
  have hle := (List.dropWhile_sublist (fun c => !isSpace c) (l := cs)).length_le
  have hread := (List.dropWhile_sublist isSpace (l := text)).length_le
  rw [h, List.length_cons] at hread
  rw [hafter]
  omega

theorem extract_shorter {cin : Input} {input : List Char} (h : (extract cin input).1.good = true) :
    (extract cin input).1.rest.length < cin.rest.length := by
  cases hgood : cin.good with
  | false => simp [extract, hgood] at h
  | true =>
    cases hrest : cin.rest.dropWhile isSpace with
    | nil => simp [extract, hgood, hrest] at h
    | cons c cs =>
      simp only [extract, hgood, hrest, if_true]
      exact afterWord_shorter hrest

/-- `do { std::cin >> input; msgs << input << gvs::send; } while (std::cin.good());`:
what is in `input` at each send. -/
def typed (cin : Input) (input : List Char) : List (List Char) :=
  let next := extract cin input
  next.2 :: if _ : next.1.good = true then typed next.1 next.2 else []
termination_by cin.rest.length
decreasing_by exact extract_shorter ‹_›

def messageClient (stdin : List Char) : List Operation :=
  (typed ⟨stdin, true⟩ []).flatMap fun input => [.shift (String.ofList input), .send .answered]

def words (text : List Char) : List (List Char) := (text.splitOnP isSpace).filter fun w => !w.isEmpty

def Open (text : List Char) : Prop := ∃ c, text.getLast? = some c ∧ isSpace c = false

theorem typed_space {text : List Char} (h : text.dropWhile isSpace = []) (input : List Char) :
    typed ⟨text, true⟩ input = [input] := by
  rw [typed]
  simp [extract, h]

theorem typed_word {text cs : List Char} {c : Char} (h : text.dropWhile isSpace = c :: cs)
    (input : List Char) :
    typed ⟨text, true⟩ input = wordOf (c :: cs) ::
      if afterWord (c :: cs) = [] then [] else typed ⟨afterWord (c :: cs), true⟩ (wordOf (c :: cs)) := by
  rw [typed]
  simp only [extract, h, if_true]
  by_cases hrest : afterWord (c :: cs) = []
  · simp [hrest]
  · have hmore : (afterWord (c :: cs)).isEmpty = false := by simpa using hrest
    simp [hrest, hmore]

theorem words_space {c : Char} (h : isSpace c = true) (text : List Char) :
    words (c :: text) = words text := by
  simp [words, List.splitOnP_cons_eq_if_modifyHead, h]

theorem words_dropWhile (text : List Char) : words (text.dropWhile isSpace) = words text := by
  induction text with
  | nil => rfl
  | cons c text ih =>
    cases h : isSpace c with
    | true => rw [List.dropWhile_cons, if_pos h, ih, words_space h]
    | false => rw [List.dropWhile_cons, if_neg (by simp [h])]

theorem wordOf_append_afterWord (text : List Char) : wordOf text ++ afterWord text = text :=
  List.takeWhile_append_dropWhile

theorem wordOf_letters {text : List Char} {c : Char} (h : c ∈ wordOf text) : isSpace c = false := by
  simpa using List.mem_takeWhile_imp h

theorem words_wordOf {c : Char} (h : isSpace c = false) (cs : List Char) :
    words (c :: cs) = wordOf (c :: cs) :: words (afterWord (c :: cs)) := by
  have hsplit := wordOf_append_afterWord (c :: cs)
  have hletters : ∀ d ∈ wordOf (c :: cs), isSpace d = false := fun d => wordOf_letters
  have hne : (wordOf (c :: cs)).isEmpty = false := by simp [wordOf, h]
  cases hrest : afterWord (c :: cs) with
  | nil =>
    rw [hrest, List.append_nil] at hsplit
    have hone : words (c :: cs) = words (wordOf (c :: cs)) := by rw [hsplit]
    rw [hone, words, List.splitOnP_eq_singleton hletters]
    simp [words, hne]
  | cons d rest =>
    have hd : isSpace d = true := by simpa using head_dropWhile hrest
    have hmore : words (c :: cs) = words (wordOf (c :: cs) ++ d :: rest) := by rw [← hrest, hsplit]
    rw [hmore, words_space hd, words, List.splitOnP_append_cons _ _ hd,
      List.splitOnP_eq_singleton hletters]
    simp [words, hne]

theorem open_append (past : List Char) {text : List Char} (h : text ≠ []) :
    Open (past ++ text) ↔ Open text := by
  simp [Open, List.getLast?_append, List.getLast?_eq_some_getLast h]

theorem open_word {word : List Char} (hne : word ≠ []) (h : ∀ c ∈ word, isSpace c = false) :
    Open word :=
  ⟨word.getLast hne, List.getLast?_eq_some_getLast hne, h _ (List.getLast_mem hne)⟩

theorem not_open_space {text : List Char} (h : text.dropWhile isSpace = []) : ¬ Open text := by
  rintro ⟨c, hlast, hc⟩
  have hspace := List.dropWhile_eq_nil_iff.mp h c (List.mem_of_getLast? hlast)
  rw [hc] at hspace
  cases hspace

/-- Each word is sent once, in the order of the input. When white space ends
the input, or nothing is in it, the last read fails and what was sent before
is sent once more. -/
theorem typed_words (text input : List Char) :
    (Open text → typed ⟨text, true⟩ input = words text) ∧
      (¬ Open text → typed ⟨text, true⟩ input = words text ++ [(words text).getLastD input]) := by
  induction hn : text.length using Nat.strong_induction_on generalizing text input with
  | _ n ih =>
    cases htext : text.dropWhile isSpace with
    | nil =>
      have hnone : words text = [] := by
        rw [← words_dropWhile, htext]
        rfl
      rw [typed_space htext, hnone]
      exact ⟨fun hopen => absurd hopen (not_open_space htext), fun _ => rfl⟩
    | cons c cs =>
      have hwords : words text = wordOf (c :: cs) :: words (afterWord (c :: cs)) := by
        rw [← words_dropWhile, htext, words_wordOf (head_dropWhile htext)]
      have hopen : Open text ↔ Open (c :: cs) := by
        rw [← List.takeWhile_append_dropWhile (p := isSpace) (l := text), htext]
        exact open_append _ (List.cons_ne_nil c cs)
      rw [typed_word htext, hwords, hopen]
      by_cases hrest : afterWord (c :: cs) = []
      · have hall := wordOf_append_afterWord (c :: cs)
        rw [hrest, List.append_nil] at hall
        have hend : Open (c :: cs) :=
          open_word (List.cons_ne_nil c cs) fun d hd => wordOf_letters (hall ▸ hd)
        rw [if_pos hrest, hrest]
        exact ⟨fun _ => rfl, fun hnot => absurd hend hnot⟩
      · obtain ⟨hopened, hclosed⟩ := ih _ (hn ▸ afterWord_shorter htext) (afterWord (c :: cs))
          (wordOf (c :: cs)) rfl
        have hafter : Open (c :: cs) ↔ Open (afterWord (c :: cs)) := by
          conv_lhs => rw [← wordOf_append_afterWord (c :: cs)]
          exact open_append _ hrest
        rw [if_neg hrest, hafter]
        refine ⟨fun h => by rw [hopened h], fun h => ?_⟩
        rw [hclosed h, List.getLastD_cons, List.cons_append]

theorem spoken_messageClient (name : String) (inputs : List (List Char)) :
    spoken name "" (inputs.flatMap fun input =>
      [.shift (String.ofList input), .send .answered]) =
        inputs.map fun input => ⟨name, String.ofList input⟩ := by
  induction inputs with
  | nil => rfl
  | cons input inputs ih => simp [spoken, Call.arrives, ih]

/-- A `message_client` among any others: the messages of the server that come
from it are the words of its input, each once and in their order, and after
them the last one once more, or an empty one, unless the input ends in a word. -/
theorem client_says_words (stubs : ℕ → Bool) (addresses names : ℕ → String)
    (turns : List (ℕ × Operation)) (k : ℕ) (hstub : stubs k = true) (stdin : List Char)
    (hk : ofClient k turns = messageClient stdin) :
    let c := run turn (opened stubs addresses names) turns
    let message := fun word => Message.mk (names k) (String.ofList word)
    c.server.messages = c.said.map Prod.snd ∧
      (Open stdin → ofClient k c.said = (words stdin).map message) ∧
      (¬ Open stdin → ofClient k c.said =
        (words stdin).map message ++ [message ((words stdin).getLastD [])]) := by
  intro c message
  obtain ⟨hopened, hclosed⟩ := typed_words stdin []
  have hsaid : ofClient k c.said = (typed ⟨stdin, true⟩ []).map message := by
    rw [(said_of_stub addresses names turns hstub).1, hk]
    exact spoken_messageClient (names k) _
  refine ⟨(heard_run stubs addresses names turns).1, fun h => ?_, fun h => ?_⟩
  · rw [hsaid, hopened h]
  · rw [hsaid, hclosed h, List.map_append, List.map_singleton]

theorem hi_said_twice :
    let c := run turn (opened (fun _ => true) (fun _ => "0.0.0.0:50055") fun _ => "Client")
      ((messageClient "hi ".toList).map (Prod.mk 0))
    ofClient 0 c.said = [⟨"Client", "hi"⟩, ⟨"Client", "hi"⟩] := by
  have hk : ofClient 0 ((messageClient "hi ".toList).map (Prod.mk 0)) =
      messageClient "hi ".toList := by
    simp [ofClient, List.filter_map, Function.comp_def]
  have hclosed : ¬ Open "hi ".toList := by
    rintro ⟨c, hc, hspace⟩
    obtain rfl : ' ' = c := Option.some.inj hc
    cases hspace
  exact (client_says_words (fun _ => true) (fun _ => "0.0.0.0:50055") (fun _ => "Client") _ 0 rfl
    "hi ".toList hk).2.2 hclosed

end Words

end GVS.MessageClients
