import KeryxMiner.Downloads

/-!
The files of a model: `ensure_gguf` and `ensure_safetensors` of `src/slm.rs`, run after run
over the directory of one model. A run may fail at each of its calls and be killed between
any two steps of a download. The log lines are left out.
-/

namespace KeryxMiner.ModelFiles

open Decimals Downloads TransitionRuns

/-! Models. -/

inductive ModelFormat where
  | safetensors
  | gguf
  | ggufQwen2
  | ggufQwen3
  | ggufGemma3

structure ModelSpec where
  format : ModelFormat
  tokenizerCid : String
  configCid : String
  weightCids : List String

/-- A file of the directory and where it comes from. -/
structure Item where
  name : String
  cid : String

def ipfsUrl (cid : String) : String := "https://keryx-labs.com/ipfs/" ++ cid

/-! What the two functions do. -/

inductive Action where
  /-- `if !path.exists() { download_file(…)?; }` -/
  | ifAbsent (item : Item)
  /-- `download_file(…)?;` -/
  | always (item : Item)
  /-- `weight_cids[0]` without shards. -/
  | outOfRange

def Action.item : Action → Option Item
  | .ifAbsent item => some item
  | .always item => some item
  | .outOfRange => none

structure Plan where
  /-- The files that stand beside the sentinel. -/
  checked : List String
  actions : List Action
  distinct : ∀ left ∈ actions.filterMap Action.item, ∀ right ∈ actions.filterMap Action.item,
    left.name = right.name → left = right
  covered : ∀ name ∈ checked,
    .outOfRange ∈ actions ∨ ∃ item ∈ actions.filterMap Action.item, item.name = name

def tokenizer (spec : ModelSpec) : Item := ⟨"tokenizer.json", spec.tokenizerCid⟩

def config (spec : ModelSpec) : Item := ⟨"config.json", spec.configCid⟩

def shardName (count i : Nat) : String :=
  if count = 1 then "model.safetensors"
  else String.ofList ("model-".toList ++ (paddedDecimal 5 (i + 1) ++
    ("-of-".toList ++ (paddedDecimal 5 count ++ ".safetensors".toList))))

def shards (spec : ModelSpec) : List Item :=
  spec.weightCids.zipIdx.map fun (cid, i) => ⟨shardName spec.weightCids.length i, cid⟩

theorem shard_name_start (count i : Nat) : (shardName count i).toList.head? = some 'm' := by
  unfold shardName
  split
  · decide +kernel
  · rw [String.toList_ofList]
    rfl

theorem shard_name_injective {count i j : Nat} (inside : i < count) (within : j < count)
    (same : shardName count i = shardName count j) : i = j := by
  unfold shardName at same
  split at same
  · omega
  · have names := List.append_cancel_left (String.ofList_injective same)
    have numbers := padded_injective 5 (List.append_cancel_right names)
    omega

theorem shards_distinct (spec : ModelSpec) : ∀ left ∈ shards spec, ∀ right ∈ shards spec,
    left.name = right.name → left = right := by
  intro left listed right member same
  obtain ⟨⟨cid, i⟩, first, rfl⟩ := List.mem_map.mp listed
  obtain ⟨⟨other, j⟩, second, rfl⟩ := List.mem_map.mp member
  obtain ⟨inside, cid_at⟩ := List.getElem?_eq_some_iff.mp (List.mem_zipIdx_iff_getElem?.mp first)
  obtain ⟨within, other_at⟩ := List.getElem?_eq_some_iff.mp (List.mem_zipIdx_iff_getElem?.mp second)
  have place : i = j := shard_name_injective inside within same
  subst place
  obtain rfl : cid = other := cid_at.symm.trans other_at
  rfl

theorem shard_named {spec : ModelSpec} {item : Item} (member : item ∈ shards spec) :
    item.name.toList.head? = some 'm' := by
  obtain ⟨⟨cid, i⟩, _, rfl⟩ := List.mem_map.mp member
  exact shard_name_start _ i

theorem not_shard {spec : ModelSpec} {item : Item} (member : item ∈ shards spec) {name : String}
    (start : name.toList.head? ≠ some 'm') : item.name ≠ name := by
  rintro rfl
  exact start (shard_named member)

def ensureSafetensors (spec : ModelSpec) : Plan where
  checked := "tokenizer.json" :: "config.json" :: (shards spec).map Item.name
  actions := .ifAbsent (tokenizer spec) :: .ifAbsent (config spec) ::
    (shards spec).map Action.always
  distinct := by
    have items : ((shards spec).map Action.always).filterMap Action.item = shards spec := by
      rw [List.filterMap_map]
      exact List.filterMap_some
    simp only [List.filterMap_cons, Action.item, items]
    have tokens : "tokenizer.json".toList.head? ≠ some 'm' := by decide +kernel
    have configs : "config.json".toList.head? ≠ some 'm' := by decide +kernel
    have other : "tokenizer.json" ≠ "config.json" := by decide
    intro left listed right member same
    rw [List.mem_cons, List.mem_cons] at listed member
    rcases listed with rfl | rfl | listed <;> rcases member with rfl | rfl | member
    · rfl
    · exact absurd same other
    · exact absurd same.symm (not_shard member tokens)
    · exact absurd same.symm other
    · rfl
    · exact absurd same.symm (not_shard member configs)
    · exact absurd same (not_shard listed tokens)
    · exact absurd same (not_shard listed configs)
    · exact shards_distinct spec left listed right member same
  covered := by
    intro name listed
    right
    rw [List.mem_cons, List.mem_cons] at listed
    rcases listed with rfl | rfl | listed
    · exact ⟨tokenizer spec, List.mem_filterMap.mpr ⟨_, List.mem_cons_self, rfl⟩, rfl⟩
    · exact ⟨config spec, List.mem_filterMap.mpr
        ⟨_, List.mem_cons_of_mem _ List.mem_cons_self, rfl⟩, rfl⟩
    · obtain ⟨item, member, rfl⟩ := List.mem_map.mp listed
      refine ⟨item, List.mem_filterMap.mpr ⟨.always item, ?_, rfl⟩, rfl⟩
      exact List.mem_cons_of_mem _ (List.mem_cons_of_mem _ (List.mem_map_of_mem member))

/-- The fetch of `weight_cids[0]`. -/
def firstShard (spec : ModelSpec) : Action :=
  match spec.weightCids with
  | [] => .outOfRange
  | cid :: _ => .always ⟨"model.gguf", cid⟩

def ensureGguf (spec : ModelSpec) : Plan where
  checked := ["tokenizer.json", "model.gguf"]
  actions := [.ifAbsent (tokenizer spec), firstShard spec]
  distinct := by
    have other : "tokenizer.json" ≠ "model.gguf" := by decide
    unfold firstShard
    split
    · intro left listed right member _
      rw [List.mem_singleton.mp listed, List.mem_singleton.mp member]
    · intro left listed right member same
      rcases List.mem_pair.mp listed with rfl | rfl <;>
        rcases List.mem_pair.mp member with rfl | rfl
      · rfl
      · exact absurd same other
      · exact absurd same.symm other
      · rfl
  covered := by
    unfold firstShard
    split
    · exact fun _ _ => .inl (List.mem_cons_of_mem _ List.mem_cons_self)
    · intro name listed
      right
      rcases List.mem_pair.mp listed with rfl | rfl
      · exact ⟨tokenizer spec, List.mem_cons_self, rfl⟩
      · exact ⟨_, List.mem_cons_of_mem _ List.mem_cons_self, rfl⟩

def planOf (spec : ModelSpec) : Plan :=
  match spec.format with
  | .safetensors => ensureSafetensors spec
  | _ => ensureGguf spec

def Plan.items (plan : Plan) : List Item := plan.actions.filterMap Action.item

/-! Runs. -/

structure Directory where
  files : String → Option (List UInt8)
  /-- The `.ok` sentinel. -/
  ok : Bool

def Directory.put (dir : Directory) (name : String) (file : Option (List UInt8)) : Directory :=
  { dir with files := fun other => if other = name then file else dir.files other }

/-- A `download_file` that has not returned. -/
structure Fetch where
  item : Item
  attempt : Nat
  phase : Phase

structure Run where
  fetch : Option Fetch
  /-- What is done after the fetch. -/
  todo : List Action

structure State where
  dir : Directory
  run : Option Run

inductive Event where
  /-- A call, with the successes of `create_dir_all` and of `remove_file`. -/
  | begin (created removed : Bool)
  | next
  | download (event : Downloads.Event)
  /-- The end of a run, with the success of the write of the sentinel. -/
  | seal (written : Bool)
  | kill

def Directory.exists (dir : Directory) (name : String) : Bool := (dir.files name).isSome

def Fetch.download (fetch : Fetch) (dir : Directory) : Download :=
  ⟨dir.files fetch.item.name, fetch.attempt, fetch.phase⟩

section Steps
variable (statusError : Nat → String) (plan : Plan)

def State.begin (state : State) (created removed : Bool) : State :=
  if plan.checked.all state.dir.exists && state.dir.ok then state
  else if created then
    -- the outcome of the removal is not looked at
    { dir := { state.dir with ok := state.dir.ok && !removed }, run := some ⟨none, plan.actions⟩ }
  else state

def State.fetches (state : State) (item : Item) (rest : List Action) : State :=
  { state with run := some ⟨some ⟨item, 0, .asking⟩, rest⟩ }

def State.act (state : State) (action : Action) (rest : List Action) : State :=
  match action with
  | .ifAbsent item =>
      -- a part that an earlier run left is enough
      if state.dir.exists item.name then { state with run := some ⟨none, rest⟩ }
      else state.fetches item rest
  | .always item => state.fetches item rest
  | .outOfRange => { state with run := none }

/-- The fetch after a step of its download; an error ends the run. -/
def State.fetched (state : State) (fetch : Fetch) (rest : List Action) (after : Download) : State where
  dir := state.dir.put fetch.item.name after.file
  run := match after.phase with
    | .returned (.ok ()) => some ⟨none, rest⟩
    | .returned (.error _) => none
    | phase => some ⟨some { fetch with attempt := after.attempt, phase := phase }, rest⟩

def step (state : State) (event : Event) : Option State :=
  match state.run, event with
  | none, .begin created removed => some (state.begin plan created removed)
  | some ⟨none, action :: rest⟩, .next => some (state.act action rest)
  | some ⟨some fetch, rest⟩, .download event =>
      (Downloads.step statusError (ipfsUrl fetch.item.cid) fetch.item.name
        (fetch.download state.dir) event).map (state.fetched fetch rest)
  | some ⟨none, []⟩, .seal written =>
      some { dir := { state.dir with ok := state.dir.ok || written }, run := none }
  | some _, .kill => some { state with run := none }
  | _, _ => none

end Steps

/-! The sentinel. -/

section Sentinel
variable (remote : String → List UInt8)

def Complete (dir : Directory) : Action → Prop
  | .ifAbsent item => dir.files item.name = some (remote item.cid)
  | .always item => dir.files item.name = some (remote item.cid)
  | .outOfRange => False

def Truthful (plan : Plan) (dir : Directory) : Prop :=
  dir.ok = true → ∀ action ∈ plan.actions, Complete remote dir action

/-- The server has the remote files. -/
def Served (before : State) (event : Event) (after : State) : Prop :=
  match before.run, event with
  | some ⟨some fetch, _⟩, .download event =>
      HonestStep (remote fetch.item.cid) (fetch.download before.dir) event
        (fetch.download after.dir)
  | _, _ => True

/-- A file that is there and is not fetched is complete. -/
def SkipsComplete (before : State) (event : Event) (_ : State) : Prop :=
  match before.run, event with
  | some ⟨none, .ifAbsent item :: _⟩, .next =>
      before.dir.exists item.name = true → before.dir.files item.name = some (remote item.cid)
  | _, _ => True

/-- What an action still needs: to be done, the fetch to return, or nothing. -/
inductive Pending (dir : Directory) (run : Run) (action : Action) : Prop where
  | todo (member : action ∈ run.todo)
  | fetching (fetch : Fetch) (current : run.fetch = some fetch) (item : action.item = some fetch.item)
  | complete (complete : Complete remote dir action)

structure Running (plan : Plan) (dir : Directory) (run : Run) : Prop where
  unsealed : dir.ok = false
  pending : ∀ action ∈ plan.actions, Pending remote dir run action
  within : ∀ action ∈ run.todo, action ∈ plan.actions
  fetch : ∀ fetch, run.fetch = some fetch →
    fetch.item ∈ plan.items ∧ Sound (remote fetch.item.cid) (fetch.download dir)

structure Kept (plan : Plan) (state : State) : Prop where
  truthful : Truthful remote plan state.dir
  prefixed : ∀ item ∈ plan.items, Prefixed (remote item.cid) (state.dir.files item.name)
  running : ∀ run, state.run = some run → Running remote plan state.dir run

variable {remote : String → List UInt8} {plan : Plan}

theorem item_of_action {action : Action} {item : Item} (member : action ∈ plan.actions)
    (named : action.item = some item) : item ∈ plan.items :=
  List.mem_filterMap.mpr ⟨action, member, named⟩

theorem complete_iff {dir : Directory} {action : Action} :
    Complete remote dir action ↔
      ∃ item, action.item = some item ∧ dir.files item.name = some (remote item.cid) := by
  cases action <;> simp [Complete, Action.item]

theorem put_same (dir : Directory) (name : String) (file : Option (List UInt8)) :
    (dir.put name file).files name = file :=
  if_pos rfl

theorem put_other (dir : Directory) {name other : String} (file : Option (List UInt8))
    (different : other ≠ name) : (dir.put name file).files other = dir.files other :=
  if_neg different

/-- Where all is complete, the files beside the sentinel are there. -/
theorem checked_exist {dir : Directory}
    (complete : ∀ action ∈ plan.actions, Complete remote dir action) :
    plan.checked.all dir.exists = true := by
  rw [List.all_eq_true]
  intro name listed
  rcases plan.covered name listed with out | ⟨item, member, rfl⟩
  · exact absurd (complete _ out) id
  · obtain ⟨action, actions, named⟩ := List.mem_filterMap.mp member
    obtain ⟨other, same, file⟩ := complete_iff.mp (complete action actions)
    obtain rfl := Option.some.inj (named.symm.trans same)
    rw [Directory.exists, file]
    rfl

theorem stopped_kept {state : State} (kept : Kept remote plan state) :
    Kept remote plan { state with run := none } where
  truthful := kept.truthful
  prefixed := kept.prefixed
  running := fun _ none => by cases none

theorem begin_kept {state : State} (kept : Kept remote plan state) (created removed : Bool) :
    Kept remote plan (state.begin plan created removed) := by
  unfold State.begin
  split
  · exact kept
  · rename_i missing
    split
    · -- beside a sentinel all files are complete, so the check would have passed
      have unsealed : state.dir.ok = false := by
        cases sealed : state.dir.ok with
        | false => rfl
        | true =>
            exfalso
            apply missing
            rw [checked_exist (kept.truthful sealed), sealed]
            rfl
      have still : (state.dir.ok && !removed) = false := by rw [unsealed, Bool.false_and]
      refine ⟨fun sealed => ?_, kept.prefixed, ?_⟩
      · rw [still] at sealed
        cases sealed
      · rintro _ ⟨⟩
        exact ⟨still, fun _ member => .todo member, fun _ member => member, fun _ none => by cases none⟩
    · exact kept

section Act
variable {state : State} {action : Action} {rest : List Action}

/-- The rest of the run, with what stands for its first action. -/
theorem rest_pending (running : Running remote plan state.dir ⟨none, action :: rest⟩)
    {fetch : Option Fetch} (first : Pending remote state.dir ⟨fetch, rest⟩ action) :
    ∀ other ∈ plan.actions, Pending remote state.dir ⟨fetch, rest⟩ other := by
  intro other member
  cases running.pending other member with
  | todo listed =>
      rcases List.mem_cons.mp listed with rfl | later
      · exact first
      · exact .todo later
  | fetching _ none => cases none
  | complete complete => exact .complete complete

theorem fetches_kept {item : Item} (kept : Kept remote plan state)
    (running : Running remote plan state.dir ⟨none, action :: rest⟩)
    (named : action.item = some item) : Kept remote plan (state.fetches item rest) := by
  have listed : item ∈ plan.items :=
    item_of_action (running.within action List.mem_cons_self) named
  refine ⟨kept.truthful, kept.prefixed, ?_⟩
  rintro _ ⟨⟩
  refine ⟨running.unsealed, rest_pending running (.fetching _ rfl named), ?_, ?_⟩
  · exact fun other member => running.within other (List.mem_cons_of_mem _ member)
  · rintro _ ⟨⟩
    exact ⟨listed, kept.prefixed item listed⟩

theorem act_kept (kept : Kept remote plan state) (paused : state.run = some ⟨none, action :: rest⟩)
    (skips : SkipsComplete remote state .next (state.act action rest)) :
    Kept remote plan (state.act action rest) := by
  have running := kept.running _ paused
  cases action with
  | ifAbsent item =>
      unfold State.act
      dsimp only
      split
      · rename_i present
        unfold SkipsComplete at skips
        rw [paused] at skips
        refine ⟨kept.truthful, kept.prefixed, ?_⟩
        rintro _ ⟨⟩
        refine ⟨running.unsealed, rest_pending running (.complete (skips present)), ?_, ?_⟩
        · exact fun other member => running.within other (List.mem_cons_of_mem _ member)
        · exact fun _ none => by cases none
      · exact fetches_kept kept running rfl
  | always item => exact fetches_kept kept running rfl
  | outOfRange => exact stopped_kept kept

end Act

section Fetched
variable {state : State} {fetch : Fetch} {rest : List Action} {after : Download}

theorem same_item {left right : Item} (listed : left ∈ plan.items) (member : right ∈ plan.items)
    (same : left.name = right.name) : left = right :=
  plan.distinct left listed right member same

theorem fetched_prefixed (kept : Kept remote plan state) (listed : fetch.item ∈ plan.items)
    (sound : Sound (remote fetch.item.cid) after) :
    ∀ item ∈ plan.items, Prefixed (remote item.cid)
      ((state.dir.put fetch.item.name after.file).files item.name) := by
  intro item member
  by_cases same : item.name = fetch.item.name
  · obtain rfl := same_item member listed same
    rw [put_same]
    exact sound.prefixed
  · rw [put_other _ _ same]
    exact kept.prefixed item member

/-- What was done stays, and the file of the fetch is complete when the fetch is. -/
theorem fetched_pending (running : Running remote plan state.dir ⟨some fetch, rest⟩)
    {next : Option Fetch}
    (done : after.file = some (remote fetch.item.cid) ∨
      ∃ goes, next = some goes ∧ goes.item = fetch.item) :
    ∀ action ∈ plan.actions,
      Pending remote (state.dir.put fetch.item.name after.file) ⟨next, rest⟩ action := by
  have listed := (running.fetch fetch rfl).1
  have fetched {action : Action} (named : action.item = some fetch.item) :
      Pending remote (state.dir.put fetch.item.name after.file) ⟨next, rest⟩ action := by
    rcases done with complete | ⟨goes, current, item⟩
    · apply Pending.complete
      rw [complete_iff]
      exact ⟨fetch.item, named, by rw [put_same, complete]⟩
    · exact .fetching goes current (item ▸ named)
  intro action member
  cases running.pending action member with
  | todo listed => exact .todo listed
  | fetching _ current named =>
      obtain rfl := Option.some.inj current
      exact fetched named
  | complete complete =>
      obtain ⟨item, named, file⟩ := complete_iff.mp complete
      by_cases same : item.name = fetch.item.name
      -- the fetch may truncate a file that was complete, and still owes it
      · obtain rfl := same_item (item_of_action member named) listed same
        exact fetched named
      · apply Pending.complete
        rw [complete_iff]
        exact ⟨item, named, by rw [put_other _ _ same, file]⟩

theorem fetched_kept (kept : Kept remote plan state) (fetching : state.run = some ⟨some fetch, rest⟩)
    (sound : Sound (remote fetch.item.cid) after) :
    Kept remote plan (state.fetched fetch rest after) := by
  have running := kept.running _ fetching
  have listed := (running.fetch fetch rfl).1
  refine ⟨fun sealed => ?_, fetched_prefixed kept listed sound, ?_⟩
  -- during a run there is no sentinel
  · exact absurd (sealed.symm.trans running.unsealed) (by decide)
  · intro run continues
    unfold State.fetched at continues
    dsimp only at continues
    split at continues
    · rename_i returned
      obtain rfl := Option.some.inj continues
      unfold Sound at sound
      rw [returned] at sound
      exact ⟨running.unsealed, fetched_pending running (.inl sound), running.within,
        fun _ none => by cases none⟩
    · cases continues
    · obtain rfl := Option.some.inj continues
      refine ⟨running.unsealed, fetched_pending running (.inr ⟨_, rfl, rfl⟩), running.within, ?_⟩
      rintro _ ⟨⟩
      refine ⟨listed, ?_⟩
      unfold Fetch.download State.fetched
      dsimp only
      rw [put_same]
      exact sound

end Fetched

theorem seal_kept {state : State} (kept : Kept remote plan state) (written : Bool)
    (ended : state.run = some ⟨none, []⟩) :
    Kept remote plan { dir := { state.dir with ok := state.dir.ok || written }, run := none } where
  truthful _ action member := by
    cases (kept.running _ ended).pending action member with
    | todo listed => cases listed
    | fetching _ none => cases none
    | complete complete => exact complete
  prefixed := kept.prefixed
  running := fun _ none => by cases none

theorem step_kept {statusError : Nat → String} (before : State) (event : Event) (after : State)
    (kept : Kept remote plan before) (stepped : step statusError plan before event = some after)
    (guard : Served remote before event after ∧ SkipsComplete remote before event after) :
    Kept remote plan after := by
  obtain ⟨served, skips⟩ := guard
  unfold step at stepped
  split at stepped
  · obtain rfl := Option.some.inj stepped
    exact begin_kept kept _ _
  · rename_i paused
    obtain rfl := Option.some.inj stepped
    exact act_kept kept paused skips
  · rename_i fetch rest event fetching
    obtain ⟨download, moved, rfl⟩ := Option.map_eq_some_iff.mp stepped
    unfold Served at served
    rw [fetching] at served
    have sound := (kept.running _ fetching).fetch fetch rfl
    exact fetched_kept kept fetching (step_sound _ _ download sound.2 moved served)
  · rename_i ended
    obtain rfl := Option.some.inj stepped
    exact seal_kept kept _ ended
  · obtain rfl := Option.some.inj stepped
    exact stopped_kept kept
  · cases stepped

end Sentinel

/-- No sentinel, and no file that is not the start of its content. -/
structure Unsealed (remote : String → List UInt8) (plan : Plan) (dir : Directory) : Prop where
  unsealed : dir.ok = false
  prefixed : ∀ item ∈ plan.items, Prefixed (remote item.cid) (dir.files item.name)

/-- Over runs in which what is skipped is complete, a sentinel stands for complete files. -/
theorem sentinel_truthful (statusError : Nat → String) (remote : String → List UInt8)
    (spec : ModelSpec) (dir : Directory) (start : Unsealed remote (planOf spec) dir)
    (events : List Event)
    (guarded : EveryStep (step statusError (planOf spec))
      (fun before event after =>
        Served remote before event after ∧ SkipsComplete remote before event after)
      ⟨dir, none⟩ events)
    (last : State) (ran : runFrom (step statusError (planOf spec)) ⟨dir, none⟩ events = some last) :
    Truthful remote (planOf spec) last.dir := by
  have kept : Kept remote (planOf spec) ⟨dir, none⟩ := by
    refine ⟨fun sealed => ?_, start.prefixed, fun _ none => by cases none⟩
    exact absurd (sealed.symm.trans start.unsealed) (by decide)
  exact (invariant_end (Kept remote (planOf spec)) step_kept events _ last kept guarded ran).truthful

/-! A tokenizer of two bytes and weights of one. -/

def smallModel : ModelSpec := ⟨.gguf, "tok", "", ["gguf"]⟩

def smallRemote (cid : String) : List UInt8 := if cid = "tok" then [1, 2] else [3]

def emptyDirectory : Directory := ⟨fun _ => none, false⟩

theorem empty_unsealed : Unsealed smallRemote (planOf smallModel) emptyDirectory where
  unsealed := rfl
  prefixed _ _ _ none := by cases none

def wholeReply (length : String) (body : List UInt8) : Reply :=
  .answered ⟨200, none, some length, body⟩

theorem whole_reply_honest (length : String) (body : List UInt8) (offset : Nat)
    (spelled : length.toList = decimal body.length) : Honest body offset (wholeReply length body) := by
  refine .inr ⟨⟨?_, ?_⟩, .inl ⟨rfl, rfl⟩⟩
  · rintro _ ⟨⟩
    exact spelled
  · rintro _ ⟨⟩

def fetchWeights : List Event :=
  [.next, .download (.ask true (wholeReply "1" [3]) true), .download (.read 1),
    .download (.wrote 1), .download .ended, .seal true]

/-- The process is killed after the first byte of the tokenizer; the next run seals. -/
def tornRuns : List Event :=
  [.begin true true, .next, .download (.ask true (wholeReply "2" [1, 2]) true),
    .download (.read 2), .download (.wrote 1), .kill, .begin true true, .next] ++ fetchWeights

def wholeRuns : List Event :=
  [.begin true true, .next, .download (.ask true (wholeReply "2" [1, 2]) true),
    .download (.read 2), .download (.wrote 2), .download .ended] ++ fetchWeights

theorem sentinel_truthful_whole :
    ∃ last, runFrom (step (fun _ => "") (planOf smallModel)) ⟨emptyDirectory, none⟩ wholeRuns =
        some last ∧
      last.dir.ok = true ∧ Truthful smallRemote (planOf smallModel) last.dir := by
  refine ⟨_, rfl, rfl, ?_⟩
  refine sentinel_truthful (fun _ => "") smallRemote smallModel emptyDirectory empty_unsealed
    wholeRuns ?_ _ rfl
  refine every_step_cons rfl ⟨trivial, trivial⟩ (every_step_cons rfl ⟨trivial, ?_⟩
    (every_step_cons rfl ⟨?_, trivial⟩ (every_step_cons rfl ⟨trivial, trivial⟩
    (every_step_cons rfl ⟨trivial, trivial⟩ (every_step_cons rfl ⟨trivial, trivial⟩
    (every_step_cons rfl ⟨trivial, trivial⟩ (every_step_cons rfl ⟨?_, trivial⟩
    (every_step_cons rfl ⟨trivial, trivial⟩ (every_step_cons rfl ⟨trivial, trivial⟩
    (every_step_cons rfl ⟨trivial, trivial⟩
    (every_step_cons rfl ⟨trivial, trivial⟩ trivial)))))))))))
  · intro present
    cases present
  · exact whole_reply_honest "2" [1, 2] _ (by decide +kernel)
  · exact whole_reply_honest "1" [3] _ (by decide +kernel)

theorem sentinel_untruthful :
    EveryStep (step (fun _ => "") (planOf smallModel)) (Served smallRemote)
        ⟨emptyDirectory, none⟩ tornRuns ∧
      ∃ last, runFrom (step (fun _ => "") (planOf smallModel)) ⟨emptyDirectory, none⟩ tornRuns =
          some last ∧
        last.dir.ok = true ∧ last.dir.files "tokenizer.json" = some [1] ∧
        ¬ Truthful smallRemote (planOf smallModel) last.dir := by
  constructor
  · refine every_step_cons rfl trivial (every_step_cons rfl trivial (every_step_cons rfl ?_
      (every_step_cons rfl trivial (every_step_cons rfl trivial (every_step_cons rfl trivial
      (every_step_cons rfl trivial (every_step_cons rfl trivial (every_step_cons rfl trivial
      (every_step_cons rfl ?_ (every_step_cons rfl trivial (every_step_cons rfl trivial
      (every_step_cons rfl trivial (every_step_cons rfl trivial trivial)))))))))))))
    · exact whole_reply_honest "2" [1, 2] _ (by decide +kernel)
    · exact whole_reply_honest "1" [3] _ (by decide +kernel)
  · refine ⟨_, rfl, rfl, rfl, ?_⟩
    intro truthful
    have complete : (some [1] : Option (List UInt8)) = some [1, 2] :=
      truthful rfl _ List.mem_cons_self
    exact absurd complete (by decide)

end KeryxMiner.ModelFiles
