import CastHub.Proofs.EventSpelling
import CastHub.Proofs.Framing
import CastHub.Proofs.Queue
import CastHub.Session.Loopback
/-!
# A conversation, line by line

A client sends lines and reads lines. Each of its lines that is not blank gets one reply, in order,
and each reply is one line of JSON that is read as that reply. A line that asks for nothing, or for
a surface that nobody can read, is refused before anything happens. Any other line is answered when
everything that was queued before it has been delivered; and between two lines the service may
deliver as much as it likes.

* `Service.afterLines` : the service after lines that were answered;
* `Service.IsHandled` : how a request is answered that is not refused;
* `Reply.parse?_render` : replies are read back;
* `Service.serve_eq` : what becomes of an input in UTF-8, line by line;
* `Service.every_line_is_answered` : what the client gets.
-/

namespace CastHub

open JsonTree (Decoder reads_word32 reads_integer)

/-! ## Replies -/

namespace Reply

/-- A reply whose number fits in 32 bits. -/
def Fits : Reply → Prop
  | error code _ => -0x80000000 ≤ code ∧ code ≤ 0x7FFFFFFF
  | _ => True

/-- The text of a reply stands for a value. -/
theorem legible {reply : Reply} (fits : reply.Fits) : reply.toJson.toTree.Legible := by
  have number : ∀ i : Id, (idJson i).Floatless := fun i => .int _
  cases reply with
  | error code message =>
    obtain ⟨low, high⟩ : -0x80000000 ≤ code ∧ code ≤ 0x7FFFFFFF := fits
    have code : (Json.int code).Canonical := .int (by omega) (by omega)
    refine RecordSpelling.legible_toTree ?_ ?_
    · simp [Json.Floatless.str, Json.Floatless.int]
    · simp [Json.Canonical.str, code]
  | _ =>
    refine RecordSpelling.legible_toTree ?_ ?_
    · simp [Json.Floatless.str, number]
    · simp [Json.Canonical.str, canonical_idJson]

theorem depth_toTree (reply : Reply) : reply.toJson.toTree.depth = 1 := by cases reply <;> rfl

/-- A reply is decoded from its own tree. -/
theorem decode_toTree {reply : Reply} (fits : reply.Fits) :
    decode .top reply.toJson.toTree = some reply := by
  have readable : reply.toJson.toTree.isReadable .top = true :=
    (legible fits).isReadable (by rw [depth_toTree]; decide)
  have word : ∀ (i : Id) place, Decoder.word32 place (.number (.ofInt i.toNat)) = some i :=
    fun i place => reads_word32 i place _ (.int _) (Nat.zero_le _)
  unfold decode JsonTree.tagged?
  rw [if_pos readable]
  cases reply with
  | ack => rfl
  | contextCreated context =>
    show ((Decoder.word32 _ (.number (.ofInt context.toNat))).bind fun c => some (contextCreated c))
      = _
    rw [word]
    rfl
  | agentCreated context agent =>
    show ((Decoder.word32 _ (.number (.ofInt context.toNat))).bind fun c =>
      (Decoder.word32 _ (.number (.ofInt agent.toNat))).bind fun a => some (agentCreated c a)) = _
    rw [word, word]
    rfl
  | error code message =>
    obtain ⟨low, high⟩ : -0x80000000 ≤ code ∧ code ≤ 0x7FFFFFFF := fits
    have number : ∀ place, Decoder.integer (-0x80000000) 0x7FFFFFFF place (.number (.ofInt code))
        = some code :=
      fun place => reads_integer low high (by omega) place _ (.int _) (Nat.zero_le _)
    show ((Decoder.integer _ _ ⟨126, true⟩ (.number (.ofInt code))).bind fun c =>
      some (error c message)) = _
    rw [number]
    rfl

/-- **A reply is read back** from its text. -/
theorem parse?_render {reply : Reply} (fits : reply.Fits) :
    parse? reply.toJson.render = some reply := by
  unfold parse? Json.render
  rw [JsonTree.parse?_render (legible fits).isProper]
  exact decode_toTree fits

/-- There are no control characters in the text of a reply. -/
theorem isPrintable_render {reply : Reply} (fits : reply.Fits) :
    IsPrintable reply.toJson.render.toList := by
  unfold Json.render JsonTree.render
  rw [String.toList_ofList]
  exact JsonTree.isPrintable_write (legible fits).isProper (List.forall_mem_nil _)

end Reply

theorem Fault.code_bounds (f : Fault) : -0x80000000 ≤ f.code ∧ f.code ≤ 0x7FFFFFFF := by
  cases f <;> decide

/-! ## Lines -/

namespace Service

variable {wording : String → String} {client : Id}

/-- The replies to requests are told by numbers of 32 bits. -/
theorem fits_serveText (s : Service) (line : String) :
    (s.serveText client line wording).1.Fits := by
  unfold serveText
  split
  · exact Fault.code_bounds .general
  · unfold serveRequest
    split
    · exact Fault.code_bounds .invalidId
    · show (Reply.ofResult _).Fits
      unfold Reply.ofResult
      split
      · exact Fault.code_bounds _
      · split <;> trivial

/-- A line that asks for nothing, or for a surface that nobody can read. -/
inductive IsRefused (line : String) : Prop
  | noRequest (unreadable : Request.parse? line = none) : IsRefused line
  | noSurface {context agent : Id} {command : Command} {surface : String} {isMain : Bool}
      {refusal : Surface.Refusal}
      (asked : Request.parse? line
        = some (.agentCommand context agent command (some surface) isMain))
      (unreadable : Surface.decode surface = .error refusal) : IsRefused line

/-- Such a line is refused, and nothing else happens. -/
theorem serveText_of_isRefused {line : String} (h : IsRefused line) (s : Service) :
    ∃ code message, s.serveText client line wording = (.error code message, s) := by
  unfold serveText
  cases h with
  | noRequest unreadable =>
    rw [unreadable]
    exact ⟨_, _, rfl⟩
  | @noSurface context agent command surface isMain refusal asked unreadable =>
    rw [asked]
    have refused : (Request.agentCommand context agent command (some surface) isMain).toEvent client
        = .error refusal := by
      unfold Request.toEvent
      simp only [Option.mapM_some, unreadable]
      rfl
    refine ⟨Fault.invalidId.code, refusal.message, ?_⟩
    show serveRequest _ _ _ = _
    unfold serveRequest
    rw [refused]

/-- The event that carries what a line asks for to the hub. -/
def Carries (client : Id) (line : String) (e : Event) : Prop :=
  ∃ request, Request.parse? line = some request ∧ request.toEvent client = .ok e

/-- How a request is answered, and what that leaves. Its event is on the log then, and stands at the
end of the queue. If the service lasts, the request has its turn once whatever was queued before it
has been delivered: the hub sees its event through, and the reply says how that went. A service that
ends before then says that it has gone. -/
structure IsHandled (s : Service) (e : Event) (reply : Reply) (s' : Service) : Prop where
  lasts : s.isOpen = true → .shutdown ∉ s.queue → ∃ turn more,
    (s.submit e).drain s.queue.length = turn ∧ turn.queue = .request e :: more ∧
    reply = .ofResult (turn.hub.attend turn.answerTo e).outcome.answer ∧
    s' = (Service.consult { turn with queue := more } e).2 ∧
    s'.hub = (turn.hub.attend turn.answerTo e).hub
  ends : s.isOpen = false ∨ .shutdown ∈ s.queue → reply = .ofResult (.error .channelClosed)

/-- A line that is not refused is handled. -/
theorem isHandled_of_carries {line : String} {e : Event} (carries : Carries client line e)
    (s : Service) : s.IsHandled e (s.serveText client line wording).1
      (s.serveText client line wording).2 := by
  obtain ⟨request, asked, carried⟩ := carries
  have served : s.serveText client line wording
      = (.ofResult (s.request e).1, (s.request e).2) := by
    unfold serveText
    rw [asked]
    show s.serveRequest client request = _
    unfold serveRequest
    rw [carried]
  rw [served]
  constructor
  · intro isOpen lasts
    obtain ⟨more, queue, comes⟩ := request_of_lasts isOpen lasts e
    rw [comes]
    exact ⟨_, more, rfl, queue, congrArg Reply.ofResult (consult_fst _ e), rfl, hub_consult _ e⟩
  · intro ends
    exact congrArg Reply.ofResult (request_of_ends ends e)

/-! ## Lines in a row -/

/-- The lines of an input that are not blank. -/
def requestLines (input : String) : List String :=
  ((Lines.split '\n' '\r' input.toList).map String.ofList).filter fun line => !Text.isBlankLine line

/-- The service after lines that were answered, and after the deliveries that followed. -/
def afterLines (client : Id) (wording : String → String) :
    (Nat → Nat) → Service → List String → Service
  | _, s, [] => s
  | pace, s, line :: lines =>
    afterLines client wording (fun k => pace (k + 1))
      ((s.serveText client line wording).2.drain (pace 0)) lines

/-- The replies to lines, each in the state that the earlier ones left. -/
def answers (client : Id) (wording : String → String) :
    (Nat → Nat) → Service → List String → List Reply
  | _, _, [] => []
  | pace, s, line :: lines =>
    (s.serveText client line wording).1
      :: answers client wording (fun k => pace (k + 1))
        ((s.serveText client line wording).2.drain (pace 0)) lines

/-- Lines are answered one after another, and blank ones are passed over. -/
theorem serveLines_encode (pace : Nat → Nat) (s : Service) (texts : List (List Char)) :
    serveLines wording client pace s (texts.map Lines.encode)
      = (answers client wording pace s
          ((texts.map String.ofList).filter fun line => !Text.isBlankLine line), true,
        afterLines client wording pace s
          ((texts.map String.ofList).filter fun line => !Text.isBlankLine line)) := by
  induction texts generalizing pace s with
  | nil => rfl
  | cons text texts ih =>
    rw [List.map_cons, List.map_cons, serveLines, Lines.fromUTF8?_encode]
    dsimp only
    by_cases blank : Text.isBlankLine (String.ofList text)
    · rw [if_pos blank, List.filter_cons_of_neg (by simp [blank]), ih]
    · rw [if_neg blank, List.filter_cons_of_pos (by simp [blank]), ih]
      rfl

theorem serve_eq (s : Service) (pace : Nat → Nat) (input : String) :
    s.serve client input.toUTF8.data.toList pace wording
      = (answers client wording pace s (requestLines input), true,
        afterLines client wording pace s (requestLines input)) := by
  unfold serve
  rw [Lines.toList_toUTF8, Lines.split_encode, serveLines_encode]
  rfl

theorem length_answers (pace : Nat → Nat) (s : Service) (lines : List String) :
    (answers client wording pace s lines).length = lines.length := by
  induction lines generalizing pace s with
  | nil => rfl
  | cons line lines ih => rw [answers, List.length_cons, List.length_cons, ih]

/-- The reply to a line is that of handling it where the earlier ones left off. -/
theorem getElem?_answers (pace : Nat → Nat) (s : Service) {lines : List String} {k : Nat}
    {line : String} (here : lines[k]? = some line) :
    (answers client wording pace s lines)[k]?
      = some
        ((afterLines client wording pace s (lines.take k)).serveText client line wording).1 := by
  induction lines generalizing pace s k with
  | nil => cases here
  | cons first lines ih =>
    cases k with
    | zero =>
      obtain rfl := Option.some.inj here
      rfl
    -- the other lines begin where the first one left off
    | succ k => exact ih _ _ here

theorem fits_answers {pace : Nat → Nat} {s : Service} {lines : List String} :
    ∀ reply ∈ answers client wording pace s lines, reply.Fits := by
  induction lines generalizing pace s with
  | nil => exact List.forall_mem_nil _
  | cons line lines ih => exact List.forall_mem_cons.2 ⟨fits_serveText s line, ih⟩

theorem toList_transcript (replies : List Reply) :
    (transcript replies).toList
      = (replies.map (·.toJson.render.toList)).flatMap (· ++ ['\n']) := by
  unfold transcript
  rw [String.toList_join, List.flatMap_map, List.flatMap_map]
  refine List.flatMap_congr fun reply _ => ?_
  exact String.toList_append

/-- **Every line is answered.** A client that sends a text gets one reply for each line of it that
is not blank, in order, each from the state that the earlier lines left, however much the service
delivers between two lines. What the client reads are these replies, each on a line of its own and
none with a line feed inside, and each is read back. A line that is refused changes nothing; any
other is handled when its turn has come. -/
theorem every_line_is_answered (wording : String → String) (client : Id) (pace : Nat → Nat)
    (s : Service) (input : String) :
    (∃ replies,
      s.serve client input.toUTF8.data.toList pace wording
          = (replies, true, afterLines client wording pace s (requestLines input))
        ∧ replies.length = (requestLines input).length
        ∧ (∀ k line, (requestLines input)[k]? = some line →
          replies[k]? = some ((afterLines client wording pace s
            ((requestLines input).take k)).serveText client line wording).1)
        ∧ (transcript replies).toList
          = (replies.map (·.toJson.render.toList)).flatMap (· ++ ['\n'])
        ∧ Lines.split '\n' '\r' (transcript replies).toList
          = replies.map (·.toJson.render.toList)
        ∧ ∀ reply ∈ replies, '\n' ∉ reply.toJson.render.toList
          ∧ Reply.parse? reply.toJson.render = some reply)
      ∧ (∀ (t : Service) line, IsRefused line →
        ∃ code message, t.serveText client line wording = (.error code message, t))
      ∧ ∀ (t : Service) line e, Carries client line e →
        t.IsHandled e (t.serveText client line wording).1
          (t.serveText client line wording).2 := by
  refine ⟨⟨answers client wording pace s (requestLines input), serve_eq s pace input,
    length_answers pace s _, fun k line here => getElem?_answers pace s here,
    toList_transcript _, ?_, ?_⟩,
    fun t line refused => serveText_of_isRefused refused t,
    fun t line e carries => isHandled_of_carries carries t⟩
  · -- what separates replies stands in none of them, however an error is worded
    rw [toList_transcript]
    refine Lines.split_frames (List.forall_mem_map.2 fun reply mem => ?_)
    exact Reply.isPrintable_render (fits_answers reply mem)
  · intro reply mem
    have fits := fits_answers reply mem
    exact ⟨fun feed => absurd (Reply.isPrintable_render fits _ feed) (by decide),
      Reply.parse?_render fits⟩

/-- Client nine has asked for a context, but the hub has not heard of it yet. -/
def opening : Event :=
  { kind := .createContext, sender := .interaction, target := .hub, src := 9, dst := .unassigned
    payload := .empty }

/-- A service in whose queue something stands. -/
def busy : Service := Service.post { hub := { classes := Loopback.classes } } opening

theorem parse?_createContext :
    Request.parse? Request.createContext.toJson.render = some .createContext := by
  have legible : Request.createContext.toJson.toTree.Legible := by
    refine RecordSpelling.legible_toTree ?_ ?_
    · simp [Json.Floatless.str]
    · simp [Json.Canonical.str]
  unfold Request.parse? Json.render
  rw [JsonTree.parse?_render legible.isProper]
  rfl

/-- A line that asks for nothing, a blank one, and a request without a line feed after it. -/
def chatter : String := "nonsense\r\n\n" ++ Request.createContext.toJson.render

/-- Two of three lines are answered. The request waits for its turn: the context that was asked for
before it is the first one, and its own is the second. -/
theorem every_line_is_answered_in_turn :
    busy.queue = [.post opening] ∧ IsRefused "nonsense"
      ∧ Carries 7 Request.createContext.toJson.render { opening with src := 7 }
      ∧ ∃ code message s',
        busy.serve 7 chatter.toUTF8.data.toList
          = ([.error code message, .contextCreated 2], true, s')
        ∧ s'.hub.contexts.has 1 = true ∧ s'.hub.contexts.has 2 = true ∧ s'.queue = [] := by
  have lines : requestLines chatter = ["nonsense", Request.createContext.toJson.render] := by
    decide +kernel
  have nonsense : IsRefused "nonsense" := .noRequest rfl
  have carries : Carries 7 Request.createContext.toJson.render { opening with src := 7 } :=
    ⟨_, parse?_createContext, rfl⟩
  obtain ⟨⟨replies, served, count, each, -⟩, refused, handled⟩ :=
    every_line_is_answered (fun _ => invalidRequest) 7 (fun _ => 0) busy chatter
  obtain ⟨code, message, one⟩ := refused busy _ nonsense
  have head : replies[0]? = some (.error code message) := by
    rw [each 0 _ (by rw [lines]; rfl), List.take_zero]
    exact congrArg _ (congrArg Prod.fst one)
  have left : afterLines 7 (fun _ => invalidRequest) (fun _ => 0) busy ["nonsense"] = busy :=
    congrArg Prod.snd one
  have lasts : .shutdown ∉ busy.queue := fun mem =>
    Envelope.noConfusion (List.mem_singleton.1 (show .shutdown ∈ [.post opening] from mem))
  obtain ⟨_, more, rfl, queue, reply, leaves, -⟩ := (handled busy _ _ carries).lasts rfl lasts
  have next : replies[1]? = some (.contextCreated 2) := by
    rw [each 1 _ (by rw [lines]; rfl), lines, List.take_succ_cons, List.take_zero, left, reply]
    rfl
  have both : replies = [.error code message, .contextCreated 2] := by
    rw [lines] at count
    obtain ⟨a, b, rfl⟩ := List.length_eq_two.1 count
    obtain rfl := Option.some.inj head
    obtain rfl := Option.some.inj next
    rfl
  have nothing : more = [] := (List.cons.inj (queue.symm.trans rfl)).2
  have last : afterLines 7 (fun _ => invalidRequest) (fun _ => 0) busy (requestLines chatter)
      = (busy.serveText 7 Request.createContext.toJson.render).2 := by
    rw [lines]
    show (Service.serveText _ 7 _ _).2 = _
    rw [show ((busy.serveText 7 "nonsense").2.drain 0) = busy from left]
  rw [both, last, leaves, nothing] at served
  exact ⟨rfl, nonsense, carries, code, message, _, served, rfl, rfl, rfl⟩

end Service

end CastHub
