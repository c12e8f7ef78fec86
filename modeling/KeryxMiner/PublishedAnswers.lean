import KeryxMiner.ServedAnswers
import KeryxMiner.StopTokens

/-!
What a resident engine answers, once `load_engine` of `src/slm.rs` has given it the stops of its
model. Every answer is a part of the text of tokens that ended at a stop or at the limit, is cut
before every stop string, and has no whitespace around it.
-/

namespace KeryxMiner.PublishedAnswers

open ByteSearch CachedDecoding Decimals ServedAnswers SplitForward

variable {Number Sampler : Type}

/-- The stops that `load_engine` takes from `stop_config`. -/
def withStops (tokenizer : StopTokens.Tokenizer) (engine : SlmEngine Number Sampler) :
    SlmEngine Number Sampler :=
  { engine with
    stopTokenIds := (StopTokens.stopConfig tokenizer engine.name).1
    stopStrings := (StopTokens.stopConfig tokenizer engine.name).2.map String.toList }

theorem stop_string_present (name : String) :
    ∀ stop ∈ (StopTokens.stopSite name).stopStrings, stop.toList ≠ [] := by
  unfold StopTokens.stopSite
  split <;> decide

/-! The tokens of an answer. -/

/-- The states of the loop over a prompt's tokens, with the tokens it generated so far. -/
inductive Looping (engine : SlmEngine Number Sampler) (start : ModelWeights Number)
    (prompt : List UInt32) : Bool → ModelWeights Number → Sampler → List UInt32 → Prop
  | begun : Looping engine start prompt false start engine.sampler []
  | drawn {started : Bool} {model after : ModelWeights Number} {sampler later : Sampler}
      {generated : List UInt32} {logits : List Number} {next : UInt32}
      (before : Looping engine start prompt started model sampler generated)
      (passed : pass engine.numerics started model (prompt ++ generated) = (.ok logits, after))
      (drew : engine.sampleNext sampler logits (prompt ++ generated) = some (next, later))
      (goes : next ∉ engine.stopTokenIds)
      (silent : hitStopString engine (generated ++ [next]) = false) :
      Looping engine start prompt true after later (generated ++ [next])

/-- The token that the loop draws after these is a stop token. -/
def StopDrawn (engine : SlmEngine Number Sampler) (start : ModelWeights Number)
    (prompt tokens : List UInt32) : Prop :=
  ∃ started model sampler logits after next later,
    Looping engine start prompt started model sampler tokens ∧
    pass engine.numerics started model (prompt ++ tokens) = (.ok logits, after) ∧
    engine.sampleNext sampler logits (prompt ++ tokens) = some (next, later) ∧
    next ∈ engine.stopTokenIds

/-- The tokens of an answer to a prompt's tokens. -/
structure Ended (engine : SlmEngine Number Sampler) (start : ModelWeights Number) (limit : Nat)
    (prompt tokens : List UInt32) : Prop where
  bounded : tokens.length ≤ limit
  unstopped : ∀ token ∈ tokens, token ∉ engine.stopTokenIds
  quiet : ∀ count < tokens.length, hitStopString engine (tokens.take count) = false
  ended : tokens.length = limit ∨ hitStopString engine tokens = true ∨
    StopDrawn engine start prompt tokens

/-- What a step of the loop can do when the loop answers. -/
theorem decode_step {engine : SlmEngine Number Sampler} {steps : Nat} {started : Bool}
    {model : ModelWeights Number} {sampler : Sampler} {allTokens generated tokens : List UInt32}
    (ran : (decodeLoop engine (steps + 1) started model sampler allTokens generated).1 =
      some tokens) :
    ∃ logits next later after, pass engine.numerics started model allTokens = (.ok logits, after) ∧
      engine.sampleNext sampler logits allTokens = some (next, later) ∧
      (next ∈ engine.stopTokenIds ∧ tokens = generated ∨
        next ∉ engine.stopTokenIds ∧
          (hitStopString engine (generated ++ [next]) = true ∧ tokens = generated ++ [next] ∨
            hitStopString engine (generated ++ [next]) = false ∧
              (decodeLoop engine steps true after later (allTokens ++ [next])
                (generated ++ [next])).1 = some tokens)) := by
  rw [decodeLoop] at ran
  cases passed : pass engine.numerics started model allTokens with
  | mk result after =>
      rw [passed] at ran
      cases result with
      | error failed => cases ran
      | ok logits =>
          dsimp only at ran
          cases drew : engine.sampleNext sampler logits allTokens with
          | none =>
              rw [drew] at ran
              cases ran
          | some drawn =>
              obtain ⟨next, later⟩ := drawn
              rw [drew] at ran
              dsimp only at ran
              refine ⟨logits, next, later, after, rfl, drew, ?_⟩
              split at ran
              · rename_i stop
                exact Or.inl ⟨stop, (Option.some.inj ran).symm⟩
              · rename_i goes
                refine Or.inr ⟨goes, ?_⟩
                split at ran
                · rename_i hit
                  exact Or.inl ⟨hit, (Option.some.inj ran).symm⟩
                · rename_i silent
                  exact Or.inr ⟨eq_false_of_ne_true silent, ran⟩

/-- Tokens that went on without a stop before the last of them. -/
structure Unstopped (engine : SlmEngine Number Sampler) (tokens : List UInt32) : Prop where
  unstopped : ∀ token ∈ tokens, token ∉ engine.stopTokenIds
  quiet : ∀ count < tokens.length, hitStopString engine (tokens.take count) = false

theorem Unstopped.add {engine : SlmEngine Number Sampler} {tokens : List UInt32} {next : UInt32}
    (before : Unstopped engine tokens) (silent : hitStopString engine tokens = false)
    (goes : next ∉ engine.stopTokenIds) : Unstopped engine (tokens ++ [next]) where
  unstopped := by
    intro token member
    obtain earlier | last := List.mem_append.mp member
    · exact before.unstopped token earlier
    · rwa [List.mem_singleton.mp last]
  quiet := by
    intro count inside
    rw [List.length_append, List.length_singleton] at inside
    rw [List.take_append_of_le_length (Nat.le_of_lt_succ inside)]
    obtain less | whole := Nat.lt_succ_iff_lt_or_eq.mp inside
    · exact before.quiet count less
    · rw [whole, List.take_length, silent]

theorem Looping.unstopped {engine : SlmEngine Number Sampler} {start model : ModelWeights Number}
    {prompt generated : List UInt32} {started : Bool} {sampler : Sampler}
    (looping : Looping engine start prompt started model sampler generated) :
    Unstopped engine generated ∧ hitStopString engine generated = false := by
  induction looping with
  | begun =>
      refine ⟨⟨fun token member => absurd member List.not_mem_nil,
        fun count inside => absurd inside (Nat.not_lt_zero count)⟩, ?_⟩
      rw [hitStopString, if_pos (Or.inr rfl)]
  | drawn _ _ _ goes silent ih => exact ⟨ih.1.add ih.2 goes, silent⟩

theorem loop_ended {engine : SlmEngine Number Sampler} {start : ModelWeights Number} {limit : Nat}
    (steps : Nat) {started : Bool} {model : ModelWeights Number} {sampler : Sampler}
    {prompt generated tokens : List UInt32} (count : generated.length + steps = limit)
    (looping : Looping engine start prompt started model sampler generated)
    (ran : (decodeLoop engine steps started model sampler (prompt ++ generated) generated).1 =
      some tokens) :
    Ended engine start limit prompt tokens := by
  induction steps generalizing started model sampler generated with
  | zero =>
      obtain rfl := Option.some.inj ran
      have before := looping.unstopped.1
      exact ⟨Nat.le_of_eq count, before.unstopped, before.quiet, Or.inl count⟩
  | succ steps ih =>
      obtain ⟨logits, next, later, after, passed, drew, ⟨stop, rfl⟩ | ⟨goes, more⟩⟩ :=
        decode_step ran
      · have before := looping.unstopped.1
        exact ⟨by omega, before.unstopped, before.quiet, Or.inr (Or.inr
          ⟨started, model, sampler, logits, after, next, later, looping, passed, drew, stop⟩)⟩
      · have length : (generated ++ [next]).length = generated.length + 1 := List.length_append
        obtain ⟨hit, rfl⟩ | ⟨silent, ran⟩ := more
        · have longer := looping.unstopped.1.add looping.unstopped.2 goes
          exact ⟨by omega, longer.unstopped, longer.quiet, Or.inr (Or.inl hit)⟩
        · rw [List.append_assoc] at ran
          exact ih (by omega) (.drawn looping passed drew goes silent) ran

/-! The text of an answer. -/

structure Trimmed (text : List Char) : Prop where
  first : ∀ letter, text.head? = some letter → isWhitespace letter = false
  last : ∀ letter, text.getLast? = some letter → isWhitespace letter = false

theorem drop_first (text : List Char) (letter : Char)
    (first : (text.dropWhile isWhitespace).head? = some letter) :
    isWhitespace letter = false := by
  have own := List.head?_dropWhile_not isWhitespace text
  rw [first] at own
  exact own

theorem trimmed (text : List Char) : Trimmed (trim text) where
  first := by
    intro letter first
    obtain ⟨rest, whole⟩ := (List.dropWhile_suffix (l := (text.dropWhile isWhitespace).reverse)
      isWhitespace).reverse
    rw [List.reverse_reverse] at whole
    apply drop_first text letter
    rw [← whole, List.head?_append]
    rw [trim] at first
    rw [first, Option.some_or]
  last := by
    intro letter last
    rw [trim, List.getLast?_reverse] at last
    exact drop_first _ letter last

theorem trim_part (text : List Char) : trim text <:+: text := by
  have front := (List.dropWhile_suffix (l := (text.dropWhile isWhitespace).reverse)
    isWhitespace).reverse
  rw [List.reverse_reverse] at front
  exact front.isInfix.trans (List.dropWhile_suffix isWhitespace).isInfix

theorem strip_part (text : List Char) : stripThinkTags text <:+: text := by
  rw [stripThinkTags]
  split
  · exact (trim_part _).trans (List.drop_suffix _ text).isInfix
  · exact trim_part text

theorem strip_trimmed (text : List Char) : Trimmed (stripThinkTags text) := by
  rw [stripThinkTags]
  split
  · exact trimmed _
  · exact trimmed text

theorem published_part (engine : SlmEngine Number Sampler) (text : List Char) :
    published engine text <:+: text.take (cutAt engine.stopStrings text) := by
  rw [published]
  split
  · exact (strip_part _).trans (trim_part _)
  · exact trim_part _

theorem published_trimmed (engine : SlmEngine Number Sampler) (text : List Char) :
    Trimmed (published engine text) := by
  rw [published]
  split
  · exact strip_trimmed _
  · exact trimmed _

/-- Where a pattern stands, the first place of it is no later. -/
theorem position_before {pattern text : List Char} (present : pattern ≠ []) {place : Nat}
    (stands : Stands pattern text place) :
    ∃ first ≤ place, position pattern text = some first := by
  classical
  have somewhere : ∃ place, Stands pattern text place := ⟨place, stands⟩
  refine ⟨Nat.find somewhere, Nat.find_min' somewhere stands, ?_⟩
  rw [position_iff present]
  exact ⟨Nat.find_spec somewhere, fun earlier before => Nat.find_min somewhere before⟩

theorem cut_before {stopStrings : List (List Char)} {text stop : List Char} {place : Nat}
    (listed : stop ∈ stopStrings) (found : position stop text = some place) :
    cutAt stopStrings text ≤ place := by
  have member : place ∈ stopStrings.filterMap fun stop => position stop text :=
    List.mem_filterMap.mpr ⟨stop, listed, found⟩
  rw [cutAt]
  cases least : (stopStrings.filterMap fun stop => position stop text).min? with
  | none =>
      rw [List.min?_eq_none_iff.mp least] at member
      cases member
  | some cut => exact (List.min?_eq_some_iff.mp least).2 place member

/-- No stop string is left before the cut. -/
theorem cut_clean {stopStrings : List (List Char)} {stop : List Char} (listed : stop ∈ stopStrings)
    (present : stop ≠ []) (text : List Char) :
    ¬ stop <:+: text.take (cutAt stopStrings text) := by
  rintro ⟨left, right, whole⟩
  have inside := stands_append left stop right
  rw [whole] at inside
  have stands : Stands stop text left.length := by
    rw [← List.take_append_drop (cutAt stopStrings text) text]
    exact (stands_left inside.inside).mpr inside
  obtain ⟨first, early, found⟩ := position_before present stands
  have cut := cut_before listed found
  have fits := inside.inside
  rw [List.length_take] at fits
  have some_letter := List.length_pos_iff.mpr present
  omega

/-! The answers. -/

/-- The model as the loop of a request finds it. -/
def begins (engine : SlmEngine Number Sampler) (model : ModelWeights Number) :
    ModelWeights Number :=
  if engine.clears then model.clearKvCache else model

/-- The tokens that the loop makes of the request's prompt, and their text. -/
structure Spoken (engine : SlmEngine Number Sampler) (model : ModelWeights Number)
    (request : Request) (prompt tokens : List UInt32) (text : List Char) : Prop where
  prompted : engine.encode request.prompt = some prompt
  generated : (decodeLoop engine (min request.maxTokens (modelMax engine.name)) false
    (begins engine model) engine.sampler prompt []).1 = some tokens
  decoded : engine.decode tokens = some text

/-- What every answer that leaves the engine is. -/
structure Publishable (engine : SlmEngine Number Sampler) (model : ModelWeights Number)
    (request : Request) (answer : List Char) : Prop where
  nonempty : answer ≠ []
  trimmed : Trimmed answer
  clean : ∀ stop ∈ engine.stopStrings, ¬ stop <:+: answer
  spoken : ∃ prompt tokens text, Spoken engine model request prompt tokens text ∧
    Ended engine (begins engine model) (min request.maxTokens (modelMax engine.name)) prompt
      tokens ∧ answer <:+: text

theorem generate_spoken {engine : SlmEngine Number Sampler} {model : ModelWeights Number}
    {request : Request} {answer : List Char}
    (answered : (generate engine model request.prompt request.maxTokens).1 = some answer) :
    ∃ prompt tokens text, Spoken engine model request prompt tokens text ∧
      Ended engine (begins engine model) (min request.maxTokens (modelMax engine.name)) prompt
        tokens ∧ published engine text = answer := by
  rw [generate] at answered
  cases encoded : engine.encode request.prompt with
  | none =>
      rw [encoded] at answered
      cases answered
  | some tokens =>
      rw [encoded] at answered
      dsimp only at answered
      cases ran : decodeLoop engine (min request.maxTokens (modelMax engine.name)) false
          (if engine.clears then model.clearKvCache else model) engine.sampler tokens [] with
      | mk result after =>
          rw [ran] at answered
          cases result with
          | none => cases answered
          | some generated =>
              obtain ⟨text, decoded, same⟩ := Option.map_eq_some_iff.mp answered
              have made := congrArg Prod.fst ran
              refine ⟨tokens, generated, text, ⟨encoded, made, decoded⟩, ?_, same⟩
              rw [← List.append_nil tokens] at made
              exact loop_ended _ (Nat.zero_add _) .begun made

/-- The model that each request finds resident. -/
def residents (engine : SlmEngine Number Sampler) :
    List Request → ModelWeights Number → List (ModelWeights Number)
  | [], _ => []
  | request :: requests, model =>
      let model := if request.reloaded then loaded model else model
      model :: match generate engine model request.prompt request.maxTokens with
        | (none, _) => residents engine requests (loaded model)
        | (some _, model) => residents engine requests model

/-- What holds of every text that `generate` answers holds of every answer of the engine. -/
theorem served_each {engine : SlmEngine Number Sampler}
    {Good : ModelWeights Number × Request → List Char → Prop}
    (each : ∀ model request answer,
      (generate engine model request.prompt request.maxTokens).1 = some answer → answer ≠ [] →
        Good (model, request) answer)
    (requests : List Request) (model : ModelWeights Number) :
    List.Forall₂ (fun asked answered => ∀ answer, answered = some answer →
        Good asked answer)
      ((residents engine requests model).zip requests) (serve engine requests model) := by
  induction requests generalizing model with
  | nil => exact List.Forall₂.nil
  | cons request requests ih =>
      have own := each (if request.reloaded then loaded model else model) request
      rw [serve, residents]
      cases ran : generate engine (if request.reloaded then loaded model else model)
          request.prompt request.maxTokens with
      | mk result after =>
          rw [ran] at own
          cases result with
          | none => exact List.Forall₂.cons (fun answer missing => by cases missing) (ih _)
          | some text =>
              refine List.Forall₂.cons (fun answer answered => ?_) (ih _)
              split at answered
              · cases answered
              · rename_i some_text
                obtain rfl := Option.some.inj answered
                exact own text rfl some_text

theorem residents_length (engine : SlmEngine Number Sampler) (requests : List Request)
    (model : ModelWeights Number) :
    (residents engine requests model).length = requests.length := by
  induction requests generalizing model with
  | nil => rfl
  | cons request requests ih =>
      rw [residents, List.length_cons, List.length_cons]
      split <;> rw [ih]

theorem served_publishable (tokenizer : StopTokens.Tokenizer) (engine : SlmEngine Number Sampler)
    (requests : List Request) (model : ModelWeights Number) :
    (residents (withStops tokenizer engine) requests model).length = requests.length ∧
      List.Forall₂ (fun asked answered => ∀ answer, answered = some answer →
          Publishable (withStops tokenizer engine) asked.1 asked.2 answer)
        ((residents (withStops tokenizer engine) requests model).zip requests)
        (serve (withStops tokenizer engine) requests model) := by
  refine ⟨residents_length .., ?_⟩
  apply served_each
  intro model request answer answered some_text
  obtain ⟨prompt, tokens, text, spoken, ended, rfl⟩ := generate_spoken answered
  have part := published_part (withStops tokenizer engine) text
  refine ⟨some_text, published_trimmed _ text, ?_, prompt, tokens, text, spoken, ended,
    part.trans (List.take_prefix _ text).isInfix⟩
  intro stop listed inside
  obtain ⟨literal, own, rfl⟩ := List.mem_map.mp listed
  exact cut_clean listed (stop_string_present engine.name literal own) text (inside.trans part)

/-- The stop set of the Dolphin model is empty, so no token ever ends one of its answers. -/
theorem dolphin_runs_on (tokenizer : StopTokens.Tokenizer) (engine : SlmEngine Number Sampler)
    (requests : List Request) (model : ModelWeights Number) :
    let dolphin := withStops tokenizer { engine with name := "dolphin-llama3-8b" }
    (residents dolphin requests model).length = requests.length ∧
      List.Forall₂ (fun asked answered => ∀ answer, answered = some answer →
          ∃ prompt tokens text, Spoken dolphin asked.1 asked.2 prompt tokens text ∧
            answer <:+: text ∧
            (tokens.length = min asked.2.maxTokens 2048 ∨
              ∃ tail, engine.decode (tokens.drop (tokens.length - 24)) = some tail ∧
                ∃ stop ∈ ["<|im_end|>", "<|im_start|>", "<|end_of_text|>"],
                  contains tail (String.toList stop)))
        ((residents dolphin requests model).zip requests) (serve dolphin requests model) := by
  refine ⟨residents_length .., ?_⟩
  apply served_each
  intro model request answer answered some_text
  obtain ⟨prompt, tokens, text, spoken, ended, rfl⟩ := generate_spoken answered
  refine ⟨prompt, tokens, text, spoken,
    (published_part _ text).trans (List.take_prefix _ text).isInfix, ?_⟩
  obtain whole | hit | ⟨_, _, _, _, _, next, _, _, _, _, stopped⟩ := ended.ended
  · exact Or.inl whole
  · right
    rw [hitStopString] at hit
    split at hit
    · cases hit
    · split at hit
      · rename_i tail read
        obtain ⟨stop, listed, inside⟩ := List.any_eq_true.mp hit
        obtain ⟨literal, own, rfl⟩ := List.mem_map.mp listed
        exact ⟨tail, read, literal, own, inside⟩
      · cases hit
  · have empty : (StopTokens.stopConfig tokenizer "dolphin-llama3-8b").1 = [] := by
      simp [StopTokens.stopConfig, StopTokens.stopSite, StopTokens.collectStopIds,
        StopTokens.dedup]
    dsimp only [withStops] at stopped
    rw [empty] at stopped
    exact absurd stopped List.not_mem_nil

end KeryxMiner.PublishedAnswers
