import KeryxMiner.EscrowEffects
import KeryxMiner.TransitionRuns

/-!
The state file of `src/escrow.rs`: `save_state`, `load_state`, and a machine on
which the process dies and starts again. A write truncates the file first. The
`serde_json` crate is a parameter.
-/

namespace KeryxMiner.EscrowStorage

open RpcMessages Escrow EscrowEffects TransitionRuns

structure SerdeJson where
  toStringPretty : EscrowState → Except String (List UInt8)
  /-- `from_str`, after the UTF-8 test of `read_to_string`. -/
  fromStr : List UInt8 → Except String EscrowState

/-- How one `fs::write` went. `failed` is an error, `crashed` the end of the
process, when that many bytes were written. -/
inductive WriteFate where
  | completed
  | refused
  | failed (written : Nat)
  | crashed (written : Nat)

def WriteFate.Crashes : WriteFate → Prop
  | .crashed _ => True
  | _ => False

instance (fate : WriteFate) : Decidable fate.Crashes := by
  cases fate <;> unfold WriteFate.Crashes <;> infer_instance

def writeFile (fate : WriteFate) (json : List UInt8) (file : Option (List UInt8)) :
    Option (List UInt8) :=
  match fate with
  | .completed => some json
  | .refused => file
  | .failed written => some (json.take written)
  | .crashed written => some (json.take written)

section Storage
variable (serde : SerdeJson)

/-- Both errors of `save_state` are only logged. -/
def saveState (fate : WriteFate) (state : EscrowState) (file : Option (List UInt8)) :
    Option (List UInt8) :=
  match serde.toStringPretty state with
  | .ok json => writeFile fate json file
  | .error _ => file

/-- A file that is absent, cannot be read or cannot be parsed gives the empty
state. -/
def loadState (readable : Bool) (file : Option (List UInt8)) : EscrowState :=
  match file with
  | none => ⟨[]⟩
  | some bytes =>
      if readable then
        match serde.fromStr bytes with
        | .ok state => state
        | .error _ => ⟨[]⟩
      else ⟨[]⟩

/-- The file exists and cannot be read or parsed. -/
def fallsBack (readable : Bool) (file : Option (List UInt8)) : Bool :=
  match file with
  | none => false
  | some bytes => !readable || (serde.fromStr bytes matches .error _)

/-- The process, its state file, and the history of the file: the states whose
write began, newest first, those since the last complete write, and whether the
last write stopped short. -/
structure Machine where
  process : Option EscrowWatcher
  file : Option (List UInt8)
  first : EscrowState
  begun : List EscrowState
  recent : List EscrowState
  saved : Bool
  torn : Bool
  fellBack : Bool

inductive Event where
  | start (readable : Bool) (now : Nat)
  | call (operation : Operation) (clock : Clock) (fate : WriteFate)
  | crash

def Machine.off (file : Option (List UInt8)) : Machine where
  process := none
  file := file
  first := loadState serde true file
  begun := []
  recent := []
  saved := false
  torn := false
  fellBack := false

/-- The history after a write of `state` as `json`. -/
def Machine.record (machine : Machine) (fate : WriteFate) (state : EscrowState)
    (json : List UInt8) : Machine :=
  match fate with
  | .completed => { machine with
      begun := state :: machine.begun, recent := [state], saved := true, torn := false }
  | .refused => machine
  | .failed written | .crashed written => { machine with
      begun := state :: machine.begun
      recent := state :: machine.recent
      torn := decide (written < json.length) }

def Machine.save (machine : Machine) (fate : WriteFate) (state : EscrowState) : Machine :=
  match serde.toStringPretty state with
  | .ok json => { machine.record fate state json with
      file := saveState serde fate state machine.file }
  | .error _ => machine

variable (crates : Crates) (account : ClaimAccount)

def machineStep (machine : Machine) : Event → Option Machine
  | .start readable now =>
      match machine.process with
      | some _ => none
      | none => some { machine with
          process := some (EscrowWatcher.loaded account (loadState serde readable machine.file) now)
          fellBack := fallsBack serde readable machine.file }
  | .call operation clock fate =>
      match machine.process with
      | none => none
      | some watcher =>
          let outcome := operate crates watcher (operation, clock)
          match outcome.written with
          | none => some { machine with process := some outcome.watcher }
          | some state => some { machine.save serde fate state with
              -- a crash inside the write leaves no process
              process := if fate.Crashes then none else some outcome.watcher }
  | .crash =>
      match machine.process with
      | none => none
      | some _ => some { machine with process := none }

end Storage

theorem machine_step_writes (serde : SerdeJson) {crates : Crates} {account : ClaimAccount}
    {machine : Machine} {watcher next : EscrowWatcher} {operation : Operation} {clock : Clock}
    {claim : Option RpcTransaction} {fate : WriteFate} {state : EscrowState} {json : List UInt8}
    (running : machine.process = some watcher)
    (called : operate crates watcher (operation, clock) = ⟨next, claim, some state⟩)
    (encoded : serde.toStringPretty state = .ok json) :
    machineStep serde crates account machine (.call operation clock fate) =
      some { machine.record fate state json with
        file := writeFile fate json machine.file
        process := if fate.Crashes then none else some next } := by
  simp only [machineStep, running, called, Machine.save, saveState, encoded]

/-! Starts after a crash. -/

/-- A start loads a state whose write began, or the first one where none began;
it loads an empty state in place of a saved one only if that was being saved; a
process that could not read its file leaves the file alone. -/
structure CrashSafe (before : Machine) (event : Event) (after : Machine) : Prop where
  yields : ∀ readable now watcher, event = .start readable now → after.process = some watcher →
    watcher.state ∈ before.begun ∨ (before.begun = [] ∧ watcher.state = before.first)
  refilled : ∀ readable now watcher, event = .start readable now → after.process = some watcher →
    before.saved = true → watcher.state.entries = [] →
    ∃ state ∈ before.recent, state.entries = []
  kept : before.fellBack = true → after.file = before.file

/-- The file can be read, and the last write to it did not stop short. -/
def SoundStart (before : Machine) (event : Event) : Prop :=
  ∀ readable now, event = .start readable now → before.file.isSome →
    readable = true ∧ before.torn = false

theorem loaded_state (account : ClaimAccount) (state : EscrowState) (now : Nat) :
    (EscrowWatcher.loaded account state now).state = state := rebuild_entries _

section Crashes
variable (serde : SerdeJson) (crates : Crates) (account : ClaimAccount)

structure Faithful (machine : Machine) : Prop where
  whole : machine.torn = false → ∀ bytes, machine.file = some bytes →
    ∃ state, serde.fromStr bytes = .ok state ∧
      (state ∈ machine.recent ∨ (machine.begun = [] ∧ state = machine.first))
  absent : machine.file = none → machine.begun = [] ∧ machine.first = ⟨[]⟩
  recorded : ∀ state ∈ machine.recent, state ∈ machine.begun
  unsaved : machine.begun = [] → machine.saved = false
  sober : machine.fellBack = false

theorem off_faithful (file : Option (List UInt8))
    (parses : ∀ bytes, file = some bytes → ∃ state, serde.fromStr bytes = .ok state) :
    Faithful serde (Machine.off serde file) := by
  constructor
  · rintro _ bytes found
    obtain rfl : file = some bytes := found
    obtain ⟨state, parsed⟩ := parses bytes rfl
    refine ⟨state, parsed, Or.inr ⟨rfl, ?_⟩⟩
    simp [Machine.off, loadState, parsed]
  · rintro none_there
    obtain rfl : file = none := none_there
    exact ⟨rfl, rfl⟩
  · exact fun state member => absurd member List.not_mem_nil
  · exact fun _ => rfl
  · rfl

/-- The history and the file are all that `Faithful` reads. -/
theorem Faithful.with_process {machine : Machine} (faithful : Faithful serde machine)
    (process : Option EscrowWatcher) : Faithful serde { machine with process := process } :=
  ⟨faithful.whole, faithful.absent, faithful.recorded, faithful.unsaved, faithful.sober⟩

section Saves
variable (roundTrip : ∀ state json, serde.toStringPretty state = .ok json →
  serde.fromStr json = .ok state)
include roundTrip

theorem partial_write_faithful (machine : Machine) (faithful : Faithful serde machine)
    (state : EscrowState) (json : List UInt8) (encoded : serde.toStringPretty state = .ok json)
    (written : Nat) :
    Faithful serde { machine with
      begun := state :: machine.begun
      recent := state :: machine.recent
      torn := decide (written < json.length)
      file := some (json.take written) } := by
  constructor
  · rintro not_torn bytes found
    obtain rfl := Option.some.inj found
    have all_written : json.length ≤ written := by simpa using not_torn
    refine ⟨state, ?_, Or.inl (List.mem_cons_self ..)⟩
    rw [List.take_of_length_le all_written]
    exact roundTrip state json encoded
  · intro none_there
    contradiction
  · intro other member
    rcases List.mem_cons.mp member with rfl | old
    · exact List.mem_cons_self ..
    · exact List.mem_cons_of_mem _ (faithful.recorded other old)
  · intro none_begun
    contradiction
  · exact faithful.sober

theorem save_faithful (machine : Machine) (faithful : Faithful serde machine) (fate : WriteFate)
    (state : EscrowState) : Faithful serde (machine.save serde fate state) := by
  unfold Machine.save saveState
  cases encoded : serde.toStringPretty state with
  | error _ => exact faithful
  | ok json =>
      cases fate with
      | completed =>
          constructor
          · rintro _ bytes found
            obtain rfl := Option.some.inj found
            exact ⟨state, roundTrip state json encoded, Or.inl (List.mem_cons_self ..)⟩
          · intro none_there
            contradiction
          · intro other member
            obtain rfl := List.mem_singleton.mp member
            exact List.mem_cons_self ..
          · intro none_begun
            contradiction
          · exact faithful.sober
      | refused => exact faithful
      | failed written =>
          exact partial_write_faithful serde roundTrip machine faithful state json encoded written
      | crashed written =>
          exact partial_write_faithful serde roundTrip machine faithful state json encoded written

end Saves

variable {serde crates account}

theorem sound_start_reads {machine : Machine} (faithful : Faithful serde machine) {readable : Bool}
    (sound : machine.file.isSome → readable = true ∧ machine.torn = false) :
    fallsBack serde readable machine.file = false ∧
      (loadState serde readable machine.file ∈ machine.recent ∨
        (machine.begun = [] ∧ loadState serde readable machine.file = machine.first)) := by
  cases present : machine.file with
  | none =>
      obtain ⟨none_begun, first_empty⟩ := faithful.absent present
      exact ⟨rfl, Or.inr ⟨none_begun, first_empty.symm⟩⟩
  | some bytes =>
      obtain ⟨rfl, not_torn⟩ := sound (by rw [present]; rfl)
      obtain ⟨state, parsed, known⟩ := faithful.whole not_torn bytes present
      simpa [fallsBack, loadState, parsed] using known

theorem machine_faithful
    (roundTrip : ∀ state json, serde.toStringPretty state = .ok json →
      serde.fromStr json = .ok state) (before : Machine) (event : Event) (after : Machine)
    (faithful : Faithful serde before)
    (stepped : machineStep serde crates account before event = some after)
    (sound : SoundStart before event) : Faithful serde after := by
  cases event with
  | start readable now =>
      simp only [machineStep] at stepped
      split at stepped
      · contradiction
      · obtain rfl := Option.some.inj stepped
        have reads := sound_start_reads faithful (sound readable now rfl)
        exact ⟨faithful.whole, faithful.absent, faithful.recorded, faithful.unsaved, reads.1⟩
  | call operation clock fate =>
      simp only [machineStep] at stepped
      split at stepped
      · contradiction
      · split at stepped
        · obtain rfl := Option.some.inj stepped
          exact faithful.with_process serde _
        · rename_i state _
          obtain rfl := Option.some.inj stepped
          exact (save_faithful serde roundTrip before faithful fate state).with_process serde _
  | crash =>
      simp only [machineStep] at stepped
      split at stepped
      · contradiction
      · obtain rfl := Option.some.inj stepped
        exact faithful.with_process serde _

theorem faithful_crash_safe (before : Machine) (event : Event) (after : Machine)
    (faithful : Faithful serde before)
    (stepped : machineStep serde crates account before event = some after)
    (sound : SoundStart before event) : CrashSafe before event after := by
  have loads : ∀ readable now watcher, event = .start readable now →
      after.process = some watcher → watcher.state ∈ before.recent ∨
        (before.begun = [] ∧ watcher.state = before.first) := by
    rintro readable now watcher rfl running
    simp only [machineStep] at stepped
    split at stepped
    · contradiction
    · obtain rfl := Option.some.inj stepped
      obtain rfl := Option.some.inj running
      rw [loaded_state]
      exact (sound_start_reads faithful (sound readable now rfl)).2
  constructor
  · intro readable now watcher starts running
    exact (loads readable now watcher starts running).imp (faithful.recorded _) id
  · intro readable now watcher starts running saved empty
    rcases loads readable now watcher starts running with recent | ⟨none_begun, _⟩
    · exact ⟨watcher.state, recent, empty⟩
    · rw [faithful.unsaved none_begun] at saved
      contradiction
  · intro fell_back
    rw [faithful.sober] at fell_back
    contradiction

/-- Every start loads what was saved, in runs where no start finds a file that
a write left short or that cannot be read. -/
theorem crash_safe (serde : SerdeJson) (crates : Crates) (account : ClaimAccount)
    (roundTrip : ∀ state json, serde.toStringPretty state = .ok json →
      serde.fromStr json = .ok state)
    (file : Option (List UInt8))
    (parses : ∀ bytes, file = some bytes → ∃ state, serde.fromStr bytes = .ok state)
    (events : List Event)
    (sound : EveryStep (machineStep serde crates account)
      (fun before event _ => SoundStart before event) (Machine.off serde file) events) :
    EveryStep (machineStep serde crates account) CrashSafe (Machine.off serde file) events :=
  every_step_of_invariant (Faithful serde) (machine_faithful roundTrip) faithful_crash_safe
    events _ (off_faithful serde file parses) sound

end Crashes

/-! Two tracked requests and their state files. -/

def requestEntry (txid : String) : EscrowEntry where
  coinbaseTxid := txid
  blockHash := ""
  confirmDaa := 0
  amountSompi := 40000000
  outputIndex := 1
  claimed := false
  slashed := false
  orphanSlashed := false
  orphanRetries := 0
  orphanRetryAfterDaa := none
  isInference := true

def firstState : EscrowState := ⟨[requestEntry onesTxid]⟩
def secondState : EscrowState := ⟨[requestEntry onesTxid, requestEntry twosTxid]⟩

def requestText (txid : String) : String :=
  "    \x7b\n      \"coinbase_txid\": \"" ++ txid ++ "\",\n      \"block_hash\": \"\",\n" ++
  "      \"confirm_daa\": 0,\n      \"amount_sompi\": 40000000,\n" ++
  "      \"output_index\": 1,\n      \"claimed\": false,\n      \"slashed\": false,\n" ++
  "      \"orphan_slashed\": false,\n      \"orphan_retries\": 0,\n" ++
  "      \"orphan_retry_after_daa\": null,\n      \"is_inference\": true\n    \x7d"

def stateJson (requests : String) : List UInt8 :=
  ("\x7b\n  \"entries\": [\n" ++ requests ++ "\n  ]\n\x7d").toList.map fun c =>
    UInt8.ofNat c.toNat

def firstJson : List UInt8 := stateJson (requestText onesTxid)
def secondJson : List UInt8 :=
  stateJson (requestText onesTxid ++ ",\n" ++ requestText twosTxid)

/-- The crate on the two states. -/
def sampleSerde : SerdeJson where
  toStringPretty state :=
    if state = firstState then .ok firstJson
    else if state = secondState then .ok secondJson
    else .error "not a sample"
  fromStr bytes :=
    if bytes = firstJson then .ok firstState
    else if bytes = secondJson then .ok secondState
    else .error "EOF while parsing a value at line 1 column 0"

theorem second_json_longer : secondJson ≠ firstJson := by
  intro same
  have lengths := congrArg List.length same
  have separator : (",\n" : String).toList.length = 2 := rfl
  simp only [secondJson, firstJson, stateJson, List.length_map, String.toList_append,
    List.length_append, separator] at lengths
  omega

theorem sample_round_trip (state : EscrowState) (json : List UInt8)
    (encoded : sampleSerde.toStringPretty state = .ok json) :
    sampleSerde.fromStr json = .ok state := by
  have longer := second_json_longer
  unfold sampleSerde at encoded ⊢
  generalize firstJson = first at *
  generalize secondJson = second at *
  dsimp only at encoded ⊢
  split at encoded
  · rename_i same
    obtain rfl := Except.ok.inj encoded
    rw [if_pos rfl, same]
  · split at encoded
    · rename_i same
      obtain rfl := Except.ok.inj encoded
      rw [if_neg longer, if_pos rfl, same]
    · contradiction

def trackingAt (txid : String) (seconds : Nat) (fate : WriteFate) : Event :=
  .call (.trackInferenceEscrow txid 0 40000000)
    ⟨seconds * 1000000000, seconds * 1000000000⟩ fate

theorem crash_safe_after_save :
    EveryStep (machineStep sampleSerde sampleCrates sampleAccount) CrashSafe
      (Machine.off sampleSerde none)
      [.start true 0, trackingAt onesTxid 2 .completed, .crash, .start true 0] := by
  apply crash_safe sampleSerde sampleCrates sampleAccount sample_round_trip none (by simp)
  intro first stepped
  obtain rfl := Option.some.inj stepped
  refine ⟨fun _ _ _ present => by contradiction, ?_⟩
  intro second stepped
  obtain rfl := Option.some.inj stepped
  refine ⟨fun _ _ other => by contradiction, ?_⟩
  intro third stepped
  obtain rfl := Option.some.inj stepped
  refine ⟨fun _ _ other => by contradiction, ?_⟩
  intro fourth stepped
  refine ⟨?_, trivial⟩
  intro readable now starts _
  obtain ⟨rfl, rfl⟩ := Event.start.inj starts
  exact ⟨rfl, rfl⟩

theorem first_encoded : sampleSerde.toStringPretty firstState = .ok firstJson := by
  simp only [sampleSerde, if_pos]

theorem second_encoded : sampleSerde.toStringPretty secondState = .ok secondJson := by
  have differs : secondState ≠ firstState := by simp [secondState, firstState]
  simp only [sampleSerde, if_neg differs, if_pos]

theorem some_text (requests : String) : stateJson requests ≠ [] := by
  intro empty
  have lengths := congrArg List.length empty
  have closing : ("\n  ]\n\x7d" : String).toList.length = 6 := rfl
  simp only [stateJson, List.length_nil, List.length_map, String.toList_append,
    List.length_append, closing] at lengths
  omega

theorem no_text_fails : sampleSerde.fromStr [] =
    .error "EOF while parsing a value at line 1 column 0" := by
  have not_first : [] ≠ firstJson := (some_text _).symm
  have not_second : [] ≠ secondJson := (some_text _).symm
  simp only [sampleSerde, if_neg not_first, if_neg not_second]

theorem no_text_falls_back : loadState sampleSerde true (some []) = ⟨[]⟩ := by
  simp only [loadState, no_text_fails, if_pos]

/-- The watcher of those requests, all of them saved. -/
def requestWatcher (txids : List String) (savedAt : Nat) : EscrowWatcher where
  account := sampleAccount
  state := ⟨txids.map requestEntry⟩
  pendingClaimTxid := none
  pendingClaimOutputIndex := none
  lastDaaScore := 0
  outpointSet := txids.reverse.map fun txid => outpointKey txid 1
  blockIndex := fun _ => []
  dirty := false
  lastSave := savedAt
  blocksSinceCompact := 0

theorem tracks_first : operate sampleCrates (EscrowWatcher.loaded sampleAccount ⟨[]⟩ 0)
    (.trackInferenceEscrow onesTxid 0 40000000, ⟨2 * 1000000000, 2 * 1000000000⟩) =
    ⟨requestWatcher [onesTxid] (2 * 1000000000), none, some firstState⟩ := rfl

theorem tracks_second : operate sampleCrates (requestWatcher [onesTxid] (2 * 1000000000))
    (.trackInferenceEscrow twosTxid 0 40000000, ⟨4 * 1000000000, 4 * 1000000000⟩) =
    ⟨requestWatcher [onesTxid, twosTxid] (4 * 1000000000), none, some secondState⟩ := rfl

/-- The second save is cut off by a crash, and the next start finds no state. -/
theorem crash_inside_write_loses :
    ¬ EveryStep (machineStep sampleSerde sampleCrates sampleAccount) CrashSafe
      (Machine.off sampleSerde none)
      [.start true 0, trackingAt onesTxid 2 .completed, trackingAt twosTxid 4 (.crashed 0),
        .start true 0] := by
  intro each
  have tracked_first := (each _ rfl).2 _
    (machine_step_writes sampleSerde rfl tracks_first first_encoded)
  have tracked_second := tracked_first.2 _
    (machine_step_writes sampleSerde rfl tracks_second second_encoded)
  have restarted := (tracked_second.2 _ rfl).1
  rcases restarted.yields true 0 _ rfl rfl with known | ⟨none_begun, _⟩
  · have lost : loadState sampleSerde true (some []) ∈ [secondState, firstState] := by
      rwa [loaded_state] at known
    rw [no_text_falls_back] at lost
    simp [secondState, firstState] at lost
  · contradiction

end KeryxMiner.EscrowStorage
