import Mathlib.Data.List.Basic

/-!
Where a generation stops: `collect_stop_ids`, `stop_config` and the token loop of `generate`
in `src/slm.rs`. The vocabulary of a model, its sampler and its text decoder are parameters.
-/

namespace KeryxMiner.StopTokens

structure Tokenizer where
  /-- Of the vocabulary and the added tokens together. -/
  tokenToId : String → Option UInt32

/-! The stop set. -/

/-- `Vec::dedup`: a run of equal items is kept once. -/
def dedup : List UInt32 → List UInt32
  | [] => []
  | [id] => [id]
  | id :: next :: rest => if id = next then dedup (next :: rest) else id :: dedup (next :: rest)

def terminatorId (tokenizer : Tokenizer) (name : String) (fallback : UInt32) : UInt32 :=
  (tokenizer.tokenToId name).getD fallback

def collectStopIds (tokenizer : Tokenizer) (names : List String) (fallbacks : List UInt32) :
    List UInt32 :=
  dedup ((List.zipWith (terminatorId tokenizer) names fallbacks).mergeSort)

/-- The arguments of `collect_stop_ids` and the stop strings of one arm of `stop_config`. -/
structure StopSite where
  names : List String
  fallbacks : List UInt32
  stopStrings : List String

def stopSite : String → StopSite
  | "dolphin-llama3-8b" =>
      { names := ["<|im_end|>", "<|end_of_text|>", "<|eot_id|>"]
        fallbacks := []
        stopStrings := ["<|im_end|>", "<|im_start|>", "<|end_of_text|>"] }
  | "gemma-3-4b" =>
      { names := ["<end_of_turn>", "<eos>"]
        fallbacks := [1]
        stopStrings := ["<end_of_turn>", "<start_of_turn>"] }
  | "llama-3.3-70b" | "llama-3.3-70b-official" =>
      { names := ["<|eot_id|>", "<|end_of_text|>", "<|eom_id|>"]
        fallbacks := [128009, 128001, 128008]
        stopStrings := ["<|eot_id|>", "<|end_of_text|>", "<|start_header_id|>"] }
  | "qwen3-32b" =>
      { names := ["<|im_end|>", "<|endoftext|>"]
        fallbacks := [151645, 151643]
        stopStrings := ["<|im_end|>", "<|im_start|>", "<|endoftext|>"] }
  | "deepseek-r1-8b" =>
      { names := ["<｜end▁of▁sentence｜>", "<｜User｜>", "<|eot_id|>"]
        fallbacks := [128001, 128011, 128009]
        stopStrings := ["<｜end▁of▁sentence｜>", "<｜User｜>", "<|eot_id|>", "<|end_of_text|>"] }
  | "deepseek-r1-32b" =>
      { names := ["<｜end▁of▁sentence｜>", "<｜User｜>"]
        fallbacks := [151643, 151644]
        stopStrings := ["<｜end▁of▁sentence｜>", "<｜User｜>", "<|im_end|>", "<|im_start|>"] }
  | _ =>
      { names := ["</s>"]
        fallbacks := [2, 0]
        stopStrings := ["</s>", "<|user|>", "<|system|>", "<|assistant|>"] }

def stopConfig (tokenizer : Tokenizer) (name : String) : List UInt32 × List String :=
  (collectStopIds tokenizer (stopSite name).names (stopSite name).fallbacks,
    (stopSite name).stopStrings)

/-! The token loop of `generate`. -/

/-- A loaded engine: the forward pass with `sample_next` over all tokens so far, and the test
of `hit_stop_string` on the tokens of the answer. -/
structure SlmEngine where
  sampleNext : List UInt32 → Option UInt32
  hitStopString : List UInt32 → List String → Bool
  stopTokenIds : List UInt32
  stopStrings : List String

def loadEngine (tokenizer : Tokenizer) (name : String)
    (sampleNext : List UInt32 → Option UInt32)
    (hitStopString : List UInt32 → List String → Bool) : SlmEngine where
  sampleNext := sampleNext
  hitStopString := hitStopString
  stopTokenIds := (stopConfig tokenizer name).1
  stopStrings := (stopConfig tokenizer name).2

/-- `for step in 0..max_steps`, from the prompt's tokens and an empty answer. -/
def generateTokens (engine : SlmEngine) :
    Nat → List UInt32 → List UInt32 → Option (List UInt32)
  | 0, _, generated => some generated
  | steps + 1, allTokens, generated =>
      match engine.sampleNext allTokens with
      | none => none
      | some next =>
          if next ∈ engine.stopTokenIds then some generated
          else if engine.hitStopString (generated ++ [next]) engine.stopStrings then
            some (generated ++ [next])
          else generateTokens engine steps (allTokens ++ [next]) (generated ++ [next])

/-! What the set contains. -/

theorem mem_dedup (id : UInt32) (ids : List UInt32) : id ∈ dedup ids ↔ id ∈ ids := by
  induction ids using dedup.induct with
  | case1 => rfl
  | case2 first => rfl
  | case3 next rest ih =>
      rw [dedup, if_pos rfl, ih]
      simp only [List.mem_cons, or_self_left]
  | case4 first next rest different ih =>
      rw [dedup, if_neg different, List.mem_cons, ih, List.mem_cons (a := id) (b := first)]

/-- The entries of a call's two lists that are looked at: a name with the fallback beside it. -/
def consulted (names : List String) (fallbacks : List UInt32) : List (String × UInt32) :=
  names.zip fallbacks

theorem collect_consulted (tokenizer : Tokenizer) (names : List String)
    (fallbacks : List UInt32) :
    collectStopIds tokenizer names fallbacks =
      dedup (((consulted names fallbacks).map fun entry =>
        terminatorId tokenizer entry.1 entry.2).mergeSort) := by
  rw [collectStopIds, consulted, List.map_zip_eq_zipWith]
  rfl

theorem mem_collect (tokenizer : Tokenizer) (names : List String) (fallbacks : List UInt32)
    (id : UInt32) :
    id ∈ collectStopIds tokenizer names fallbacks ↔
      ∃ entry ∈ consulted names fallbacks, terminatorId tokenizer entry.1 entry.2 = id := by
  rw [collect_consulted, mem_dedup, List.mem_mergeSort, List.mem_map]

/-- The set `ids` answers for every entry of a call's two lists, and none of them is passed over. -/
structure Stops (tokenizer : Tokenizer) (names : List String) (fallbacks ids : List UInt32) :
    Prop where
  known : ∀ name ∈ names, ∀ id, tokenizer.tokenToId name = some id → id ∈ ids
  unknown : ∀ (i : Nat) (name : String) (fallback : UInt32), names[i]? = some name →
    tokenizer.tokenToId name = none → fallbacks[i]? = some fallback → fallback ∈ ids
  unnamed : ∀ fallback ∈ fallbacks.drop names.length, fallback ∈ ids
  namesConsulted : (consulted names fallbacks).map Prod.fst = names
  fallbacksConsulted : (consulted names fallbacks).map Prod.snd = fallbacks

theorem paired_terminator (tokenizer : Tokenizer) {names : List String} {fallbacks : List UInt32}
    {i : Nat} {name : String} {fallback : UInt32} (listed : names[i]? = some name)
    (paired : fallbacks[i]? = some fallback) :
    terminatorId tokenizer name fallback ∈ collectStopIds tokenizer names fallbacks := by
  rw [mem_collect]
  refine ⟨(name, fallback), ?_, rfl⟩
  rw [consulted, List.mem_iff_getElem?]
  exact ⟨i, List.getElem?_zip_eq_some.mpr ⟨listed, paired⟩⟩

theorem consulted_names (names : List String) (fallbacks : List UInt32) :
    (consulted names fallbacks).map Prod.fst = names ↔ names.length ≤ fallbacks.length := by
  constructor
  · intro whole
    have count := congrArg List.length whole
    rw [consulted, List.length_map, List.length_zip] at count
    omega
  · exact List.map_fst_zip

theorem consulted_fallbacks (names : List String) (fallbacks : List UInt32) :
    (consulted names fallbacks).map Prod.snd = fallbacks ↔ fallbacks.length ≤ names.length := by
  constructor
  · intro whole
    have count := congrArg List.length whole
    rw [consulted, List.length_map, List.length_zip] at count
    omega
  · exact List.map_snd_zip

/-- Nothing is lost of two lists of one length, and something is passed over of two others. -/
theorem stops_iff_paired (tokenizer : Tokenizer) (names : List String) (fallbacks : List UInt32) :
    Stops tokenizer names fallbacks (collectStopIds tokenizer names fallbacks) ↔
      names.length = fallbacks.length := by
  constructor
  · intro stops
    apply Nat.le_antisymm
    · exact (consulted_names names fallbacks).mp stops.namesConsulted
    · exact (consulted_fallbacks names fallbacks).mp stops.fallbacksConsulted
  · intro paired
    constructor
    · intro name listed id found
      obtain ⟨i, place⟩ := List.mem_iff_getElem?.mp listed
      have within : i < fallbacks.length := paired ▸ (List.getElem?_eq_some_iff.mp place).1
      have member := paired_terminator tokenizer place (List.getElem?_eq_getElem within)
      rwa [terminatorId, found, Option.getD_some] at member
    · intro i name fallback place missing beside
      have member := paired_terminator tokenizer place beside
      rwa [terminatorId, missing, Option.getD_none] at member
    · rw [paired, List.drop_length]
      exact fun fallback rest => absurd rest List.not_mem_nil
    · exact (consulted_names names fallbacks).mpr (Nat.le_of_eq paired)
    · exact (consulted_fallbacks names fallbacks).mpr (Nat.le_of_eq paired.symm)

/-- The models whose call lists a fallback for every name and nothing more. -/
def pairedModels : List String :=
  ["llama-3.3-70b", "llama-3.3-70b-official", "qwen3-32b", "deepseek-r1-8b", "deepseek-r1-32b"]

theorem site_paired (name : String) :
    (stopSite name).names.length = (stopSite name).fallbacks.length ↔ name ∈ pairedModels := by
  unfold stopSite
  split
  all_goals simp_all [pairedModels]

/-- The calls that lose nothing, and what the others stop at whatever the vocabulary is: Dolphin
at nothing, Gemma at no `<eos>`, a model without an arm at no padding. -/
theorem stops_exactly (tokenizer : Tokenizer) :
    (∀ names fallbacks, Stops tokenizer names fallbacks
        (collectStopIds tokenizer names fallbacks) ↔ names.length = fallbacks.length) ∧
      (∀ name, Stops tokenizer (stopSite name).names (stopSite name).fallbacks
        (stopConfig tokenizer name).1 ↔ name ∈ pairedModels) ∧
      ∀ name, name ∉ pairedModels → (stopConfig tokenizer name).1 =
        if name = "dolphin-llama3-8b" then []
        else if name = "gemma-3-4b" then [(tokenizer.tokenToId "<end_of_turn>").getD 1]
        else [(tokenizer.tokenToId "</s>").getD 2] := by
  refine ⟨stops_iff_paired tokenizer, fun name => ?_, fun name other => ?_⟩
  · exact (stops_iff_paired tokenizer _ _).trans (site_paired name)
  · rw [stopConfig]
    unfold stopSite
    split
    all_goals simp_all [pairedModels, collectStopIds, terminatorId, dedup]

def dolphinTokens : Tokenizer where
  tokenToId
    | "<|im_end|>" => some 128256
    | "<|im_start|>" => some 128257
    | "<|end_of_text|>" => some 128001
    | "<|eot_id|>" => some 128009
    | _ => none

theorem dolphin_never_stops :
    (stopConfig dolphinTokens "dolphin-llama3-8b").1 = [] ∧
      ¬ Stops dolphinTokens (stopSite "dolphin-llama3-8b").names
        (stopSite "dolphin-llama3-8b").fallbacks
        (stopConfig dolphinTokens "dolphin-llama3-8b").1 := by
  have empty : (stopConfig dolphinTokens "dolphin-llama3-8b").1 = [] := by
    simp [stopConfig, stopSite, collectStopIds, dedup]
  refine ⟨empty, fun stops => ?_⟩
  have member := stops.known "<|im_end|>" (by simp [stopSite]) 128256 rfl
  rw [empty] at member
  exact List.not_mem_nil member

/-! What an answer contains. -/

theorem generated_avoids (engine : SlmEngine) (steps : Nat)
    {allTokens generated answer : List UInt32}
    (ran : generateTokens engine steps allTokens generated = some answer) :
    ∃ sampled, answer = generated ++ sampled ∧ sampled.length ≤ steps ∧
      ∀ id ∈ sampled, id ∉ engine.stopTokenIds := by
  induction steps generalizing allTokens generated with
  | zero =>
      obtain rfl : generated = answer := Option.some_inj.mp ran
      exact ⟨[], (List.append_nil _).symm, Nat.le_refl 0,
        fun id member => absurd member List.not_mem_nil⟩
  | succ steps ih =>
      rw [generateTokens] at ran
      cases sampled : engine.sampleNext allTokens with
      | none => simp [sampled] at ran
      | some next =>
          simp only [sampled] at ran
          split at ran
          · obtain rfl : generated = answer := Option.some_inj.mp ran
            exact ⟨[], (List.append_nil _).symm, Nat.zero_le _,
              fun id member => absurd member List.not_mem_nil⟩
          · rename_i continues
            split at ran
            · obtain rfl : generated ++ [next] = answer := Option.some_inj.mp ran
              refine ⟨[next], rfl, Nat.succ_le_succ (Nat.zero_le _), ?_⟩
              simpa using continues
            · obtain ⟨rest, rfl, short, avoids⟩ := ih ran
              refine ⟨next :: rest, by simp, Nat.succ_le_succ short, ?_⟩
              simpa [continues] using avoids

/-- Where no entry is missed, no known terminator is ever part of an answer. -/
theorem answer_avoids_terminators {tokenizer : Tokenizer} {name : String}
    (stops : Stops tokenizer (stopSite name).names (stopSite name).fallbacks
      (stopConfig tokenizer name).1)
    (sampleNext : List UInt32 → Option UInt32)
    (hitStopString : List UInt32 → List String → Bool) {steps : Nat} {prompt answer : List UInt32}
    (ran : generateTokens (loadEngine tokenizer name sampleNext hitStopString) steps prompt [] =
      some answer) :
    ∀ terminator ∈ (stopSite name).names, ∀ id ∈ answer,
      tokenizer.tokenToId terminator ≠ some id := by
  intro terminator listed id spoken known
  obtain ⟨sampled, rfl, _, avoids⟩ := generated_avoids _ _ ran
  exact avoids id spoken (stops.known terminator listed id known)

end KeryxMiner.StopTokens
