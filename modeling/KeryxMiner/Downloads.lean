import KeryxMiner.Decimals
import KeryxMiner.TransitionRuns

/-!
`download_file` of `src/slm.rs`. The disk, the network and the server answer through the
labels of the steps. The log lines and the pauses between attempts are left out; what `ureq`
says of a status is a parameter.
-/

namespace KeryxMiner.Downloads

open Decimals TransitionRuns

def maxAttempts : Nat := 240

def bufferSize : Nat := 65536

/-! The server. -/

structure Response where
  status : Nat
  contentRange : Option String
  contentLength : Option String
  body : List UInt8

inductive Reply where
  | unreachable (e : String)
  | answered (response : Response)

/-- `Request::call`: a status of 400 and above is an error. -/
def call (statusError : Nat → String) : Reply → Except String Response
  | .unreachable e => .error e
  | .answered response =>
      if 400 ≤ response.status then .error (statusError response.status) else .ok response

/-! States. -/

structure Stream where
  /-- What the server still sends. -/
  rest : List UInt8
  downloaded : Nat
  total : Option Nat

inductive Phase where
  | asking
  | reading (stream : Stream)
  /-- `write_all` of a read of `n` bytes, with what is left of them. -/
  | writing (stream : Stream) (n : Nat) (chunk : List UInt8)
  | returned (result : Except String Unit)

structure Download where
  /-- The file at `dest`. -/
  file : Option (List UInt8)
  attempt : Nat
  phase : Phase

inductive Event where
  /-- A turn of the loop up to the open file: whether `metadata` succeeds, what the server
  replies and whether the file opens. -/
  | ask (metadata : Bool) (reply : Reply) (opened : Bool)
  | read (n : Nat)
  | ended
  | readFailed (e : String)
  | wrote (n : Nat)
  | writeFailed (e : String)

/-! Steps. -/

def Download.resumeFrom (state : Download) (metadata : Bool) : Nat :=
  if metadata then (state.file.map List.length).getD 0 else 0

/-- Another attempt, or the failure of the last one. -/
def Download.again (state : Download) (failure : Nat → String) : Download :=
  let attempt := state.attempt + 1
  if maxAttempts ≤ attempt then
    { state with attempt := attempt, phase := .returned (.error (failure attempt)) }
  else { state with attempt := attempt, phase := .asking }

/-- The total of a `Content-Range`. -/
def rangeTotal (response : Response) : Option Nat :=
  response.contentRange.bind fun cr => parseU64 (trim (lastPart '/' cr.toList))

def lengthTotal (response : Response) : Option Nat :=
  response.contentLength.bind fun s => parseU64 s.toList

def callFailure (url e : String) (attempt : Nat) : String :=
  "HTTP GET " ++ url ++ " failed after " ++ toString attempt ++ " attempts: " ++ e

section Steps
variable (statusError : Nat → String) (url dest : String)

def Download.ask (state : Download) (metadata : Bool) (reply : Reply) (opened : Bool) : Download :=
  let resumeFrom := state.resumeFrom metadata
  match call statusError reply with
  | .error e => state.again (callFailure url e)
  | .ok response =>
      if 0 < resumeFrom ∧ response.status = 206 then
        if opened then
          { state with phase := .reading ⟨response.body, resumeFrom, rangeTotal response⟩ }
        else { state with phase := .returned (.error ("open append " ++ dest)) }
      -- `call` gives a status of 400 and above as an error, so it does not come to this branch
      else if 0 < resumeFrom ∧ response.status = 416 then
        { state with phase := .returned (.ok ()) }
      -- the whole body, or a server that does not heed the range: the file is truncated
      else if opened then
        { state with file := some [], phase := .reading ⟨response.body, 0, lengthTotal response⟩ }
      else { state with phase := .returned (.error ("create " ++ dest)) }

/-- The end of a stream, clean where there is no error. -/
def Download.finish (state : Download) (stream : Stream) (streamErr : Option String) : Download :=
  -- a total that is not known never counts as reached
  if streamErr.isNone && stream.total.any (· ≤ stream.downloaded) then
    { state with phase := .returned (.ok ()) }
  else state.again fun attempt =>
    "download " ++ url ++ " interrupted after " ++ toString attempt ++ " attempts (got " ++
      toString (stream.downloaded / 1000000) ++ " MB)"

def step (state : Download) (event : Event) : Option Download :=
  match state.phase, event with
  | .asking, .ask metadata reply opened =>
      some (state.ask statusError url dest metadata reply opened)
  | .reading stream, .read n =>
      if 0 < n ∧ n ≤ min bufferSize stream.rest.length then
        some { state with
          phase := .writing { stream with rest := stream.rest.drop n } n (stream.rest.take n) }
      else none
  | .reading stream, .ended => some (state.finish url stream none)
  | .reading stream, .readFailed e => some (state.finish url stream (some e))
  | .writing stream n chunk, .wrote k =>
      if 0 < k ∧ k ≤ chunk.length then
        some { state with
          file := state.file.map (· ++ chunk.take k)
          phase :=
            if k = chunk.length then .reading { stream with downloaded := stream.downloaded + n }
            else .writing stream n (chunk.drop k) }
      else none
  | .writing stream _ _, .writeFailed e => some (state.finish url stream (some e))
  | _, _ => none

end Steps

def begun (file : Option (List UInt8)) : Download := ⟨file, 0, .asking⟩

/-! A server that holds the content. -/

/-- The length headers, where they are sent. -/
structure Lengths (content : List UInt8) (response : Response) : Prop where
  length : ∀ text, response.contentLength = some text →
    text.toList = decimal response.body.length
  range : ∀ text, response.contentRange = some text →
    ∃ before, text.toList = before ++ '/' :: decimal content.length

/-- No answer, an error status, all of the content, or the content from the offset on. -/
def Honest (content : List UInt8) (offset : Nat) : Reply → Prop
  | .unreachable _ => True
  | .answered response =>
      400 ≤ response.status ∨
        (Lengths content response ∧ (response.status = 200 ∧ response.body = content ∨
          response.status = 206 ∧ response.body = content.drop offset))

def HonestStep (content : List UInt8) (before : Download) (event : Event) (_ : Download) : Prop :=
  match event with
  | .ask metadata reply _ => Honest content (before.resumeFrom metadata) reply
  | _ => True

/-! What holds at every moment. -/

def Prefixed (content : List UInt8) (file : Option (List UInt8)) : Prop :=
  ∀ bytes ∈ file, bytes <+: content

/-- A stream goes on where the file, with what is being written, ends. -/
structure Continues (content : List UInt8) (file : Option (List UInt8)) (stream : Stream)
    (n : Nat) (chunk : List UInt8) : Prop where
  bytes : ∃ bytes, file = some bytes ∧ bytes ++ chunk ++ stream.rest = content ∧
    stream.downloaded + n = bytes.length + chunk.length
  total : ∀ total ∈ stream.total, total = content.length

def Sound (content : List UInt8) (state : Download) : Prop :=
  match state.phase with
  | .asking => Prefixed content state.file
  | .reading stream => Continues content state.file stream 0 []
  | .writing stream n chunk => Continues content state.file stream n chunk
  | .returned (.ok ()) => state.file = some content
  | .returned (.error _) => Prefixed content state.file

theorem range_total {content : List UInt8} {response : Response} (lengths : Lengths content response) :
    ∀ total ∈ rangeTotal response, total = content.length := by
  intro total member
  obtain ⟨text, sent, parsed⟩ := Option.bind_eq_some_iff.mp member
  obtain ⟨before, split⟩ := lengths.range text sent
  rw [split, last_part_decimal, trim_decimal, parse_decimal] at parsed
  exact (Option.some.inj (Option.ite_none_right_eq_some.mp parsed).2).symm

theorem length_total {content : List UInt8} {response : Response} (lengths : Lengths content response) :
    ∀ total ∈ lengthTotal response, total = response.body.length := by
  intro total member
  obtain ⟨text, sent, parsed⟩ := Option.bind_eq_some_iff.mp member
  rw [lengths.length text sent, parse_decimal] at parsed
  exact (Option.some.inj (Option.ite_none_right_eq_some.mp parsed).2).symm

theorem Continues.prefixed {content : List UInt8} {file : Option (List UInt8)} {stream : Stream}
    {n : Nat} {chunk : List UInt8} (continues : Continues content file stream n chunk) :
    Prefixed content file := by
  obtain ⟨bytes, rfl, split, _⟩ := continues.bytes
  intro held member
  obtain rfl := Option.some.inj member
  exact ⟨chunk ++ stream.rest, by rw [← List.append_assoc, split]⟩

theorem Sound.prefixed {content : List UInt8} {state : Download} (sound : Sound content state) :
    Prefixed content state.file := by
  unfold Sound at sound
  split at sound
  · exact sound
  · exact Continues.prefixed sound
  · exact Continues.prefixed sound
  · intro bytes member
    obtain rfl := Option.some.inj (sound.symm.trans member)
    exact List.prefix_refl _
  · exact sound

theorem again_sound {content : List UInt8} {state : Download} {failure : Nat → String}
    (prefixed : Prefixed content state.file) : Sound content (state.again failure) := by
  unfold Download.again
  dsimp only
  split
  · exact prefixed
  · exact prefixed

theorem finish_failed {url : String} {content : List UInt8} {state : Download}
    (prefixed : Prefixed content state.file) (stream : Stream) (e : String) :
    Sound content (state.finish url stream (some e)) := by
  unfold Download.finish
  rw [if_neg (by simp)]
  exact again_sound prefixed

theorem finish_ended {url : String} {content : List UInt8} {state : Download} {stream : Stream}
    (continues : Continues content state.file stream 0 []) :
    Sound content (state.finish url stream none) := by
  unfold Download.finish
  split
  · rename_i complete
    rw [Bool.and_eq_true, Option.any_eq_true] at complete
    obtain ⟨_, total, known, reached⟩ := complete
    obtain ⟨bytes, file, split, downloaded⟩ := continues.bytes
    rw [List.append_nil] at split
    rw [continues.total total known, decide_eq_true_iff] at reached
    have sizes := congrArg List.length split
    rw [List.length_append] at sizes
    -- as many bytes as the content has, so nothing is left of it
    have none : stream.rest = [] := List.eq_nil_of_length_eq_zero (by
      simp only [List.length_nil] at downloaded
      omega)
    rw [none, List.append_nil] at split
    exact file.trans (congrArg some split)
  · exact again_sound continues.prefixed

theorem call_ok {statusError : Nat → String} {reply : Reply} {response : Response}
    (called : call statusError reply = .ok response) :
    reply = .answered response ∧ response.status < 400 := by
  unfold call at called
  split at called
  · cases called
  · split at called
    · cases called
    · rename_i small
      obtain rfl := Except.ok.inj called
      exact ⟨rfl, by omega⟩

/-- The offset is the length of the file, where it is not zero. -/
theorem resume_from_file {state : Download} {metadata : Bool}
    (resumes : 0 < state.resumeFrom metadata) :
    ∃ bytes, state.file = some bytes ∧ state.resumeFrom metadata = bytes.length := by
  unfold Download.resumeFrom at resumes ⊢
  cases metadata with
  | false => exact absurd resumes (Nat.lt_irrefl 0)
  | true =>
      cases present : state.file with
      | none =>
          rw [present] at resumes
          exact absurd resumes (Nat.lt_irrefl 0)
      | some bytes => exact ⟨bytes, rfl, rfl⟩

theorem ask_sound {statusError : Nat → String} {url dest : String} {content : List UInt8}
    {state : Download} {metadata opened : Bool} {reply : Reply}
    (prefixed : Prefixed content state.file)
    (honest : Honest content (state.resumeFrom metadata) reply) :
    Sound content (state.ask statusError url dest metadata reply opened) := by
  unfold Download.ask
  dsimp only
  split
  · exact again_sound prefixed
  · rename_i response called
    obtain ⟨rfl, small⟩ := call_ok called
    obtain ⟨lengths, answers⟩ := honest.resolve_left (by omega)
    split
    · rename_i partly
      split
      · -- appended: the body goes on where the file ends
        have body : response.body = content.drop (state.resumeFrom metadata) := by
          rcases answers with whole | part
          · exact absurd (whole.1.symm.trans partly.2) (by decide)
          · exact part.2
        obtain ⟨bytes, file, length⟩ := resume_from_file partly.1
        obtain ⟨tail, split⟩ := prefixed bytes file
        refine ⟨⟨bytes, file, ?_, ?_⟩, range_total lengths⟩
        · rw [List.append_nil]
          change bytes ++ response.body = content
          rw [body, length, ← split, List.drop_left]
        · exact length
      · exact prefixed
    · rename_i fresh
      split
      · rename_i satisfied
        rcases answers with whole | part
        · exact absurd (whole.1.symm.trans satisfied.2) (by decide)
        · exact absurd (part.1.symm.trans satisfied.2) (by decide)
      · split
        · -- created: the body is all of the content
          have body : response.body = content := by
            rcases answers with whole | part
            · exact whole.2
            · have start : state.resumeFrom metadata = 0 := by
                by_contra resumes
                exact fresh ⟨Nat.pos_of_ne_zero resumes, part.1⟩
              rw [part.2, start, List.drop_zero]
          refine ⟨⟨[], rfl, body, rfl⟩, ?_⟩
          rw [← body]
          exact length_total lengths
        · exact prefixed

section Steps
variable {statusError : Nat → String} {url dest : String} {content : List UInt8}

theorem read_sound {file : Option (List UInt8)} {stream : Stream}
    (continues : Continues content file stream 0 []) (n : Nat) (inside : n ≤ stream.rest.length) :
    Continues content file { stream with rest := stream.rest.drop n } n (stream.rest.take n) := by
  obtain ⟨⟨bytes, held, split, downloaded⟩, total⟩ := continues
  refine ⟨⟨bytes, held, ?_, ?_⟩, total⟩
  · rw [List.append_assoc, List.take_append_drop, ← split, List.append_nil]
  · rw [List.length_take, Nat.min_eq_left inside, Nat.add_right_cancel_iff]
    exact downloaded

theorem wrote_sound {file : Option (List UInt8)} {stream : Stream} {n : Nat} {chunk : List UInt8}
    (continues : Continues content file stream n chunk) (k : Nat) :
    Continues content (file.map (· ++ chunk.take k)) stream n (chunk.drop k) := by
  obtain ⟨⟨bytes, rfl, split, downloaded⟩, total⟩ := continues
  refine ⟨⟨bytes ++ chunk.take k, rfl, ?_, ?_⟩, total⟩
  · rw [List.append_assoc bytes, List.take_append_drop, split]
  · rw [List.length_append, Nat.add_assoc, ← List.length_append, List.take_append_drop, downloaded]

theorem step_sound (before : Download) (event : Event) (after : Download)
    (sound : Sound content before) (stepped : step statusError url dest before event = some after)
    (honest : HonestStep content before event after) : Sound content after := by
  obtain ⟨file, attempt, phase⟩ := before
  cases phase with
  | asking =>
      cases event with
      | ask metadata reply opened =>
          obtain rfl := Option.some.inj stepped
          exact ask_sound sound honest
      | _ => cases stepped
  | reading stream =>
      cases event with
      | read n =>
          obtain ⟨⟨_, inside⟩, same⟩ := Option.ite_none_right_eq_some.mp stepped
          obtain rfl := Option.some.inj same
          exact read_sound sound n (Nat.le_trans inside (Nat.min_le_right ..))
      | ended =>
          obtain rfl := Option.some.inj stepped
          exact finish_ended sound
      | readFailed e =>
          obtain rfl := Option.some.inj stepped
          exact finish_failed sound.prefixed stream e
      | _ => cases stepped
  | writing stream n chunk =>
      cases event with
      | wrote k =>
          obtain ⟨_, same⟩ := Option.ite_none_right_eq_some.mp stepped
          obtain rfl := Option.some.inj same
          have next := wrote_sound sound k
          by_cases all : k = chunk.length
          -- the read counts when the last of its bytes is written
          · rw [all, List.drop_length] at next
            obtain ⟨⟨bytes, held, split, downloaded⟩, total⟩ := next
            rw [if_pos all, all]
            exact ⟨⟨bytes, held, split, downloaded⟩, total⟩
          · rw [if_neg all]
            exact next
      | writeFailed e =>
          obtain rfl := Option.some.inj stepped
          exact finish_failed sound.prefixed stream e
      | _ => cases stepped
  | returned result => cases event <;> cases stepped

/-- At every moment the file is a prefix of the content, and after `Ok` it is the content. -/
theorem resumed_download_safe (statusError : Nat → String) (url dest : String)
    (content : List UInt8) (file : Option (List UInt8)) (prefixed : Prefixed content file)
    (events : List Event)
    (honest : EveryStep (step statusError url dest) (HonestStep content) (begun file) events)
    (last : Download) (ran : runFrom (step statusError url dest) (begun file) events = some last) :
    Prefixed content last.file ∧
      (last.phase = .returned (.ok ()) → last.file = some content) := by
  have sound : Sound content last :=
    invariant_end (Sound content) step_sound events (begun file) last prefixed honest ran
  constructor
  · exact sound.prefixed
  · intro returned
    unfold Sound at sound
    rw [returned] at sound
    exact sound

end Steps

/-- The second byte of two is resumed after the first. -/
theorem resumed_download_safe_seam :
    ∃ last, runFrom (step (fun _ => "") "url" "dest") (begun (some [7]))
        [.ask true (.answered ⟨206, some "bytes 1-1/2", none, [8]⟩) true, .read 1, .wrote 1, .ended] =
          some last ∧ last.phase = .returned (.ok ()) ∧ last.file = some [7, 8] := by
  refine ⟨_, rfl, rfl, ?_⟩
  refine (resumed_download_safe (fun _ => "") "url" "dest" [7, 8] (some [7]) ?_
    [.ask true (.answered ⟨206, some "bytes 1-1/2", none, [8]⟩) true, .read 1, .wrote 1, .ended]
    ?_ _ rfl).2 rfl
  · rintro _ ⟨⟩
    exact ⟨[8], rfl⟩
  · intro asked _
    refine ⟨?_, fun _ _ => ⟨trivial, fun _ _ => ⟨trivial, fun _ _ => ⟨trivial, trivial⟩⟩⟩⟩
    refine .inr ⟨⟨?_, ?_⟩, .inr ⟨rfl, rfl⟩⟩
    · rintro _ ⟨⟩
    · rintro _ ⟨⟩
      exact ⟨"bytes 1-1".toList, by decide +kernel⟩

/-! A complete file. -/

/-- The range behind the end is not satisfiable, or there is no answer. -/
def RefusedAtEnd (event : Event) : Prop :=
  (∃ response opened, event = .ask true (.answered response) opened ∧ response.status = 416) ∨
    ∃ metadata e opened, event = .ask metadata (.unreachable e) opened

/-- Under such answers the complete file is accepted as it is. -/
def Accepts (statusError : Nat → String) (url dest : String) (content : List UInt8)
    (attempt : Nat) : Prop :=
  ∃ events last, (∀ event ∈ events, RefusedAtEnd event) ∧
    runFrom (step statusError url dest) ⟨some content, attempt, .asking⟩ events = some last ∧
    last.phase = .returned (.ok ()) ∧ last.file = some content

section Complete
variable {statusError : Nat → String} {url dest : String} {content : List UInt8}

/-- A status of 416 comes as an error, so its branch is not reached. -/
theorem refused_again (attempt : Nat) {event : Event} (refused : RefusedAtEnd event) :
    ∃ e, step statusError url dest ⟨some content, attempt, .asking⟩ event =
      some (Download.again ⟨some content, attempt, .asking⟩ (callFailure url e)) := by
  rcases refused with ⟨response, opened, rfl, status⟩ | ⟨metadata, e, opened, rfl⟩
  · have called : call statusError (.answered response) = .error (statusError 416) := by
      rw [call, if_pos (by omega), status]
    refine ⟨statusError 416, ?_⟩
    simp only [step, Download.ask, called]
  · exact ⟨e, rfl⟩

/-- The file stays, and no such attempt ends in `Ok`. -/
def Waits (content : List UInt8) (state : Download) : Prop :=
  state.file = some content ∧ (state.phase = .asking ∨ ∃ e, state.phase = .returned (.error e))

theorem refused_waits (before : Download) (event : Event) (after : Download)
    (waits : Waits content before) (stepped : step statusError url dest before event = some after)
    (refused : RefusedAtEnd event) : Waits content after := by
  obtain ⟨file, attempt, phase⟩ := before
  obtain ⟨rfl, rfl | ⟨e, rfl⟩⟩ := waits
  · obtain ⟨e, same⟩ := @refused_again statusError url dest content attempt event refused
    obtain rfl := Option.some.inj (same.symm.trans stepped)
    unfold Download.again
    dsimp only
    split
    · exact ⟨rfl, .inr ⟨_, rfl⟩⟩
    · exact ⟨rfl, .inl rfl⟩
  · cases event <;> cases stepped

theorem refused_run (attempt : Nat) (response : Response) (status : response.status = 416)
    (opened : Bool) (count : Nat) (remaining : attempt + (count + 1) = maxAttempts) :
    runFrom (step statusError url dest) ⟨some content, attempt, .asking⟩
        (List.replicate (count + 1) (.ask true (.answered response) opened)) =
      some ⟨some content, maxAttempts,
        .returned (.error (callFailure url (statusError 416) maxAttempts))⟩ := by
  have stepped (attempt : Nat) :
      step statusError url dest ⟨some content, attempt, .asking⟩
          (.ask true (.answered response) opened) =
        some (Download.again ⟨some content, attempt, .asking⟩
          (callFailure url (statusError 416))) := by
    have called : call statusError (.answered response) = .error (statusError 416) := by
      rw [call, if_pos (by omega), status]
    simp only [step, Download.ask, called]
  induction count generalizing attempt with
  | zero =>
      rw [List.replicate_one, runFrom, stepped, Option.bind_some, runFrom, Download.again]
      have last : attempt + 1 = maxAttempts := remaining
      dsimp only
      rw [last, if_pos (Nat.le_refl _)]
  | succ count ih =>
      rw [List.replicate_succ, runFrom, stepped, Option.bind_some, Download.again]
      dsimp only
      rw [if_neg (by omega)]
      exact ih (attempt + 1) (by omega)

end Complete

/-- A file that is complete is not accepted while its end is refused, and the attempts run out. -/
theorem complete_never_accepted (statusError : Nat → String) (url dest : String)
    (content : List UInt8) (attempt : Nat) (inside : attempt < maxAttempts) :
    ¬ Accepts statusError url dest content attempt ∧
      ∀ response, response.status = 416 → ∀ opened,
        runFrom (step statusError url dest) ⟨some content, attempt, .asking⟩
            (List.replicate (maxAttempts - attempt) (.ask true (.answered response) opened)) =
          some ⟨some content, maxAttempts,
            .returned (.error (callFailure url (statusError 416) maxAttempts))⟩ := by
  constructor
  · rintro ⟨events, last, refused, ran, returned, _⟩
    have waits : Waits content last := invariant_end (Waits content) refused_waits events _ last
      ⟨rfl, .inl rfl⟩ (every_step_of_labels refused _) ran
    rcases waits.2 with asking | ⟨e, failed⟩
    · rw [asking] at returned
      cases returned
    · rw [failed] at returned
      cases returned
  · intro response status opened
    obtain ⟨count, left⟩ := Nat.exists_eq_add_one_of_ne_zero (Nat.sub_ne_zero_of_lt inside)
    rw [left]
    exact refused_run attempt response status opened count (by omega)

/-- The end of three bytes is refused. -/
def refusal : Event := .ask true (.answered ⟨416, some "bytes */3", none, []⟩) true

theorem complete_never_accepted_staged :
    ¬ Accepts (fun _ => "status code 416") "url" "model.gguf" [1, 2, 3] 0 :=
  (complete_never_accepted (fun _ => "status code 416") "url" "model.gguf" [1, 2, 3] 0 (by decide)).1

theorem staged_file_fails :
    step (fun _ => "status code 416") "url" "model.gguf" (begun (some [1, 2, 3])) refusal =
        some ⟨some [1, 2, 3], 1, .asking⟩ ∧
      runFrom (step (fun _ => "status code 416") "url" "model.gguf") (begun (some [1, 2, 3]))
          (List.replicate 240 refusal) =
        some ⟨some [1, 2, 3], 240,
          .returned (.error "HTTP GET url failed after 240 attempts: status code 416")⟩ :=
  ⟨rfl, refused_run 0 _ rfl true 239 rfl⟩

end KeryxMiner.Downloads
