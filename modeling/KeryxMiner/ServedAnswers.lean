import KeryxMiner.ByteSearch
import KeryxMiner.CachedDecoding
import KeryxMiner.Decimals
import Mathlib.Analysis.Complex.Exponential
import Mathlib.Analysis.Real.Sqrt

/-!
`generate` of `src/slm.rs` on a split model, and the answers that one resident engine gives to
request after request. The prompt's template and its tokens, the sampler and the text decoder are
parameters; texts are lists of characters.
-/

namespace KeryxMiner.ServedAnswers

open ByteSearch CachedDecoding Decimals SplitCausality SplitForward SplitRows

variable {Number Sampler : Type}

structure SlmEngine (Number Sampler : Type) where
  name : String
  numerics : Numerics Number
  /-- `format_prompt` and the tokens of its text. -/
  encode : List Char → Option (List UInt32)
  decode : List UInt32 → Option (List Char)
  /-- `LogitsProcessor::new` with its seed. -/
  sampler : Sampler
  sampleNext : Sampler → List Number → List UInt32 → Option (UInt32 × Sampler)
  stopTokenIds : List UInt32
  stopStrings : List (List Char)
  /-- The qwen3 fork is cleared before a request, the llama fork is not. -/
  clears : Bool

/-- `contains`. -/
def contains (text pattern : List Char) : Bool := (position pattern text).isSome

def hitStopString (engine : SlmEngine Number Sampler) (generated : List UInt32) : Bool :=
  if engine.stopStrings = [] ∨ generated = [] then false
  else
    match engine.decode (generated.drop (generated.length - 24)) with
    | some tail => engine.stopStrings.any (contains tail)
    | none => false

/-! The token loop. -/

/-- The pass of a step: over all tokens first, then over the last one. -/
def pass (numerics : Numerics Number) (started : Bool) (model : ModelWeights Number)
    (allTokens : List UInt32) : Except ForwardError (List Number) × ModelWeights Number :=
  if started then
    forward numerics model (allTokens.drop (allTokens.length - 1)) (allTokens.length - 1)
  else forward numerics model allTokens 0

/-- `none` is an error of the request. -/
def decodeLoop (engine : SlmEngine Number Sampler) :
    Nat → Bool → ModelWeights Number → Sampler → List UInt32 → List UInt32 →
      Option (List UInt32) × ModelWeights Number
  | 0, _, model, _, _, generated => (some generated, model)
  | steps + 1, started, model, sampler, allTokens, generated =>
      match pass engine.numerics started model allTokens with
      | (.error _, model) => (none, model)
      | (.ok logits, model) =>
          match engine.sampleNext sampler logits allTokens with
          | none => (none, model)
          | some (next, sampler) =>
              if next ∈ engine.stopTokenIds then (some generated, model)
              else if hitStopString engine (generated ++ [next]) then
                (some (generated ++ [next]), model)
              else decodeLoop engine steps true model sampler (allTokens ++ [next])
                (generated ++ [next])

/-! The text. -/

def closingTag : List Char := "</think>".toList

def stripThinkTags (text : List Char) : List Char :=
  match position closingTag text with
  | some place => trim (text.drop (place + closingTag.length))
  | none => trim text

/-- The earliest stop string. -/
def cutAt (stopStrings : List (List Char)) (text : List Char) : Nat :=
  (stopStrings.filterMap fun stop => position stop text).min?.getD text.length

def thinks (name : String) : Bool :=
  name = "qwen3-32b" || name = "deepseek-r1-8b" || name = "deepseek-r1-32b"

def published (engine : SlmEngine Number Sampler) (text : List Char) : List Char :=
  let answer := trim (text.take (cutAt engine.stopStrings text))
  if thinks engine.name then stripThinkTags answer else answer

def modelMax (name : String) : Nat := if name = "llama-3.3-70b" then 1024 else 2048

def generate (engine : SlmEngine Number Sampler) (model : ModelWeights Number)
    (prompt : List Char) (maxNewTokens : Nat) : Option (List Char) × ModelWeights Number :=
  match engine.encode prompt with
  | none => (none, model)
  | some tokens =>
      let model := if engine.clears then model.clearKvCache else model
      match decodeLoop engine (min maxNewTokens (modelMax engine.name)) false model engine.sampler
          tokens [] with
      | (none, model) => (none, model)
      | (some generated, model) => ((engine.decode generated).map (published engine), model)

/-! The requests to a resident engine. -/

structure Request where
  prompt : List Char
  maxTokens : Nat
  /-- Another model was loaded since the last request. -/
  reloaded : Bool

/-- The answers of `load_and_run_inference`: an empty one is dropped, an error also drops the
engine, which is loaded again for the next request. -/
def serve (engine : SlmEngine Number Sampler) :
    List Request → ModelWeights Number → List (Option (List Char))
  | [], _ => []
  | request :: requests, model =>
      let model := if request.reloaded then loaded model else model
      match generate engine model request.prompt request.maxTokens with
      | (none, _) => none :: serve engine requests (loaded model)
      | (some text, model) =>
          (if text = [] then none else some text) :: serve engine requests model

/-! The same without caches: every step is one pass of a freshly loaded model. -/

def recomputeLoop (engine : SlmEngine Number Sampler) (fresh : ModelWeights Number) :
    Nat → Sampler → List UInt32 → List UInt32 → Option (List UInt32)
  | 0, _, _, generated => some generated
  | steps + 1, sampler, allTokens, generated =>
      match (forward engine.numerics fresh allTokens 0).1 with
      | .error _ => none
      | .ok logits =>
          match engine.sampleNext sampler logits allTokens with
          | none => none
          | some (next, sampler) =>
              if next ∈ engine.stopTokenIds then some generated
              else if hitStopString engine (generated ++ [next]) then some (generated ++ [next])
              else recomputeLoop engine fresh steps sampler (allTokens ++ [next])
                (generated ++ [next])

def answerAlone (engine : SlmEngine Number Sampler) (fresh : ModelWeights Number)
    (request : Request) : Option (List Char) := do
  let tokens ← engine.encode request.prompt
  let generated ← recomputeLoop engine fresh (min request.maxTokens (modelMax engine.name))
    engine.sampler tokens []
  let text ← engine.decode generated
  if published engine text = [] then none else some (published engine text)

theorem loaded_cleared (model : ModelWeights Number) :
    loaded model.clearKvCache = loaded model := by
  rw [loaded, loaded, ModelWeights.clearKvCache, ModelWeights.clearKvCache, List.map_map]
  rfl

theorem loaded_twice (model : ModelWeights Number) : loaded (loaded model) = loaded model := by
  rw [loaded, loaded, ModelWeights.clearKvCache, ModelWeights.clearKvCache, List.map_map]
  rfl

theorem wired_cleared {model : ModelWeights Number} (wired : Wired model) :
    Wired model.clearKvCache where
  byRow := (wired_loaded wired).byRow
  norm := wired.norm
  some_device := wired.some_device
  placed := (wired_loaded wired).placed
  masked := wired.masked

section Recomputed
variable {engine : SlmEngine Number Sampler} (numericsByRow : NumericsByRow engine.numerics)
  (weightless : MaskedWeighNothing engine.numerics)
include numericsByRow weightless

/-- What a step finds: any model before the first one, then the caches of all tokens but the
last. -/
structure Ready (engine : SlmEngine Number Sampler) (started : Bool) (model : ModelWeights Number)
    (allTokens : List UInt32) : Prop where
  wired : Wired model
  cached : started = true → ∃ tokens next, allTokens = tokens ++ [next] ∧
    Continues engine.numerics model tokens

theorem pass_answered {started : Bool} {model : ModelWeights Number} {allTokens : List UInt32}
    (ready : Ready engine started model allTokens) :
    Answered engine.numerics model allTokens
      (pass engine.numerics started model allTokens) := by
  cases started with
  | false => exact prompt_answered numericsByRow weightless ready.wired allTokens
  | true =>
      obtain ⟨tokens, next, rfl, continues⟩ := ready.cached rfl
      have last : (tokens ++ [next]).length - 1 = tokens.length := by
        rw [List.length_append, List.length_singleton, Nat.add_sub_cancel]
      rw [pass, if_pos rfl, last, List.drop_left]
      exact token_answered numericsByRow weightless continues next

/-- The numbers of a pass are those of a fresh pass over all tokens. -/
theorem fresh_numbers {fresh model : ModelWeights Number} (wired : Wired fresh)
    (same : loaded model = fresh) (allTokens : List UInt32) :
    (forward engine.numerics fresh allTokens 0).1.toOption =
      numbersOf engine.numerics model allTokens := by
  rw [(prompt_answered numericsByRow weightless wired allTokens).numbers, ← same, numbers_loaded]

theorem decode_recomputes {fresh : ModelWeights Number} (wired : Wired fresh) (steps : Nat)
    {started : Bool} {model : ModelWeights Number} (sampler : Sampler)
    {allTokens : List UInt32} (generated : List UInt32)
    (ready : Ready engine started model allTokens) (same : loaded model = fresh) :
    (decodeLoop engine steps started model sampler allTokens generated).1 =
        recomputeLoop engine fresh steps sampler allTokens generated ∧
      ((decodeLoop engine steps started model sampler allTokens generated).1.isSome →
        Wired (decodeLoop engine steps started model sampler allTokens generated).2 ∧
        loaded (decodeLoop engine steps started model sampler allTokens generated).2 = fresh) := by
  induction steps generalizing started model sampler allTokens generated with
  | zero => exact ⟨rfl, fun _ => ⟨ready.wired, same⟩⟩
  | succ steps ih =>
      obtain ⟨numbers, continues, kept⟩ := pass_answered numericsByRow weightless ready
      rw [← fresh_numbers numericsByRow weightless wired same] at numbers
      rw [decodeLoop, recomputeLoop]
      cases passed : pass engine.numerics started model allTokens with
      | mk result after =>
          rw [passed] at numbers continues kept
          dsimp only at numbers continues kept ⊢
          cases result with
          | error failed =>
              cases again : (forward engine.numerics fresh allTokens 0).1 with
              | error other => exact ⟨rfl, fun answered => (Bool.false_ne_true answered).elim⟩
              | ok logits =>
                  rw [again] at numbers
                  cases numbers
          | ok logits =>
              cases again : (forward engine.numerics fresh allTokens 0).1 with
              | error other =>
                  rw [again] at numbers
                  cases numbers
              | ok others =>
                  rw [again] at numbers
                  obtain rfl := Option.some.inj numbers
                  have goes := continues rfl
                  have stays : loaded after = fresh := (kept rfl).trans same
                  dsimp only
                  cases engine.sampleNext sampler logits allTokens with
                  | none => exact ⟨rfl, fun answered => (Bool.false_ne_true answered).elim⟩
                  | some drawn =>
                      obtain ⟨next, sampler⟩ := drawn
                      dsimp only
                      split
                      · exact ⟨rfl, fun _ => ⟨goes.wired, stays⟩⟩
                      · split
                        · exact ⟨rfl, fun _ => ⟨goes.wired, stays⟩⟩
                        · exact ih sampler _
                            ⟨goes.wired, fun _ => ⟨allTokens, next, rfl, goes⟩⟩ stays

theorem generate_alone {fresh model : ModelWeights Number} (wired : Wired model)
    (same : loaded model = fresh) (request : Request) :
    answerAlone engine fresh request =
        ((generate engine model request.prompt request.maxTokens).1.bind fun text =>
          if text = [] then none else some text) ∧
      ((generate engine model request.prompt request.maxTokens).1.isSome →
        Wired (generate engine model request.prompt request.maxTokens).2 ∧
        loaded (generate engine model request.prompt request.maxTokens).2 = fresh) := by
  rw [answerAlone, generate]
  cases engine.encode request.prompt with
  | none => exact ⟨rfl, fun answered => (Bool.false_ne_true answered).elim⟩
  | some tokens =>
      obtain ⟨start, cleared⟩ : Wired (if engine.clears then model.clearKvCache else model) ∧
          loaded (if engine.clears then model.clearKvCache else model) = fresh := by
        split
        · exact ⟨wired_cleared wired, (loaded_cleared model).trans same⟩
        · exact ⟨wired, same⟩
      have fresh_wired : Wired fresh := same ▸ wired_loaded wired
      obtain ⟨own, keeps⟩ := decode_recomputes numericsByRow weightless fresh_wired
        (min request.maxTokens (modelMax engine.name)) engine.sampler []
        ⟨start, fun other => (Bool.false_ne_true other).elim⟩ cleared
      dsimp only
      rw [Option.bind_eq_bind, Option.bind_some, ← own]
      cases ran : decodeLoop engine (min request.maxTokens (modelMax engine.name)) false
          (if engine.clears then model.clearKvCache else model) engine.sampler tokens [] with
      | mk result after =>
          rw [ran] at keeps
          cases result with
          | none => exact ⟨rfl, fun answered => (Bool.false_ne_true answered).elim⟩
          | some generated =>
              refine ⟨?_, fun _ => keeps rfl⟩
              dsimp only
              rw [Option.bind_eq_bind, Option.bind_some, Option.bind_map]
              rfl

theorem served_from (requests : List Request) {model : ModelWeights Number}
    (wired : Wired model) :
    serve engine requests model = requests.map (answerAlone engine (loaded model)) := by
  induction requests generalizing model with
  | nil => rfl
  | cons request requests ih =>
      obtain ⟨start, same⟩ : Wired (if request.reloaded then loaded model else model) ∧
          loaded (if request.reloaded then loaded model else model) = loaded model := by
        split
        · exact ⟨wired_loaded wired, loaded_twice model⟩
        · exact ⟨wired, rfl⟩
      obtain ⟨own, keeps⟩ := generate_alone numericsByRow weightless start same request
      rw [serve, List.map_cons, own]
      cases ran : generate engine (if request.reloaded then loaded model else model)
          request.prompt request.maxTokens with
      | mk result after =>
          rw [ran] at keeps
          cases result with
          | none =>
              dsimp only
              rw [ih (wired_loaded start), loaded_twice, same]
              rfl
          | some text =>
              obtain ⟨after_wired, after_same⟩ := keeps rfl
              dsimp only at after_same ⊢
              rw [ih after_wired, after_same]
              rfl

/-- Every answer of a resident engine is the one that its request gets alone from a freshly loaded
model that recomputes all tokens at every step: no request reads what another left behind. -/
theorem served_alone {tokEmbeddings : UInt32 → Option (List Number)}
    {blocks : List (LayerWeights Number)} {norm output : Rows Number → Rows Number}
    {devices : List Nat} {model : ModelWeights Number}
    (byRow : ∀ block ∈ blocks, LayerByRow block) (normByRow : RowByRow norm)
    (made : fromGguf tokEmbeddings blocks norm output devices = some model)
    (requests : List Request) :
    serve engine requests model = requests.map (answerAlone engine model) := by
  obtain ⟨wired, fresh⟩ := made_wired byRow normByRow made
  rw [served_from numericsByRow weightless requests wired, fresh]

end Recomputed

/-! Over the reals with minus infinity, which is `none`, a masked score weighs nothing. -/

/-- The exponential of a score. -/
noncomputable def weight : Option ℝ → ℝ
  | none => 0
  | some score => Real.exp score

noncomputable def realSoftmax (scores : List (Option ℝ)) : List (Option ℝ) :=
  scores.map fun score => some (weight score / (scores.map weight).sum)

/-- A column of the values under the weights. -/
noncomputable def weighed (weights : List (Option ℝ)) (values : List (List (Option ℝ)))
    (c : Nat) : ℝ :=
  (List.zipWith (fun w row => w.getD 0 * (row.getD c none).getD 0) weights values).sum

noncomputable def realScore (headDim : Nat) (query key : List (Option ℝ)) : Option ℝ :=
  some ((List.zipWith (fun a b => a.getD 0 * b.getD 0) query key).sum / Real.sqrt headDim)

noncomputable def realProduct (weights : List (Option ℝ)) (values : Rows (Option ℝ)) :
    List (Option ℝ) :=
  (List.range (values.headD []).length).map fun c => some (weighed weights values c)

noncomputable def realNumerics : Numerics (Option ℝ) where
  negInf := none
  score headDim := List.zipWith fun queries keys =>
    queries.map fun query => keys.map (realScore headDim query)
  softmaxLastDim := List.map (List.map realSoftmax)
  matmul := List.zipWith fun head values => head.map fun weights => realProduct weights values
  add := List.zipWith (List.zipWith fun a b => some (a.getD 0 + b.getD 0))
  siluMul := List.zipWith
    (List.zipWith fun a b => some (a.getD 0 / (1 + Real.exp (-a.getD 0)) * b.getD 0))

theorem real_by_row : NumericsByRow realNumerics where
  score _ _ _ := rfl
  softmax _ := rfl
  matmul _ _ := rfl
  add _ _ := rfl
  siluMul _ _ := rfl

theorem softmax_masked (scores : List (Option ℝ)) (count : Nat) :
    realSoftmax (scores ++ List.replicate count none) =
      realSoftmax scores ++ List.replicate count (some 0) := by
  have total : ((scores ++ List.replicate count none).map weight).sum =
      (scores.map weight).sum := by
    rw [List.map_append, List.map_replicate, List.sum_append, List.sum_replicate, weight,
      smul_zero, add_zero]
  rw [realSoftmax, total, List.map_append, List.map_replicate, weight, zero_div]
  rfl

theorem weighed_zeros (values : List (List (Option ℝ))) (c : Nat) :
    weighed (List.replicate values.length (some 0)) values c = 0 := by
  induction values with
  | nil => rfl
  | cons row rows ih =>
      rw [weighed] at ih ⊢
      rw [List.length_cons, List.replicate_succ, List.zipWith_cons_cons, List.sum_cons, ih,
        Option.getD_some, zero_mul, add_zero]

theorem real_masked : MaskedWeighNothing realNumerics := by
  intro scores values others some_score same
  have count : (realSoftmax scores).length = values.length := by
    rw [realSoftmax, List.length_map, same]
  have head : (values ++ others).headD [] = values.headD [] := by
    cases values with
    | nil => exact absurd (List.length_eq_zero_iff.mp same) some_score
    | cons row rows => rfl
  change realProduct (realSoftmax (scores ++ List.replicate others.length none))
    (values ++ others) = realProduct (realSoftmax scores) values
  rw [softmax_masked, realProduct, realProduct, head]
  apply List.map_congr_left
  intro c _
  rw [weighed, List.zipWith_append count, List.sum_append]
  have nothing := weighed_zeros others c
  rw [weighed] at nothing
  rw [nothing, add_zero, weighed]

/-- A quarter turn of a head of two numbers. -/
noncomputable def quarterTurn : List (Option ℝ) → List (Option ℝ)
  | [a, b] => [some (-b.getD 0), a]
  | head => head

noncomputable def sampleBlock : LayerWeights (Option ℝ) where
  attentionWq := id
  attentionWk := List.map (List.take 2)
  attentionWv := List.map (List.drop 2)
  attentionWo := id
  attentionNorm := id
  mlp := ⟨id, id, id⟩
  ffnNorm := id
  headNorms := none
  nHead := 2
  nKvHead := 1
  headDim := 2
  rope indexPos := List.map (List.mapIdx fun i => quarterTurn^[indexPos + i])
  kvCache := none
  device := 0
  deviceIdx := 0

theorem id_by_row : RowByRow (id : Rows (Option ℝ) → Rows (Option ℝ)) :=
  fun x => (List.map_id x).symm

theorem sample_by_row : LayerByRow sampleBlock where
  wq := id_by_row
  wk _ := rfl
  wv _ := rfl
  wo := id_by_row
  attentionNorm := id_by_row
  ffnNorm := id_by_row
  w1 := id_by_row
  w2 := id_by_row
  w3 := id_by_row
  qNorm := nofun
  kNorm := nofun
  rope _ _ := rfl

def sampleEmbeddings (token : UInt32) : Option (List (Option ℝ)) :=
  if token < 16 then some [some 1, some token.toNat, some 0, some 1] else none

/-- Two blocks, each on a device of its own. -/
noncomputable def sampleModel : ModelWeights (Option ℝ) where
  tokEmbeddings := sampleEmbeddings
  layers := [sampleBlock, { sampleBlock with device := 1, deviceIdx := 1 }]
  norm := id
  output := id
  masks := []
  devices := [0, 1]

noncomputable def sampleEngine : SlmEngine (Option ℝ) Unit where
  name := "llama-3.3-70b"
  numerics := realNumerics
  encode prompt := some (prompt.map fun letter => UInt32.ofNat (letter.toNat % 16))
  decode tokens := some (tokens.map fun token => Char.ofNat (97 + token.toNat))
  sampler := ()
  sampleNext _ logits _ := some (if (logits.headD none).getD 0 < 100 then 5 else 2, ())
  stopTokenIds := [2]
  stopStrings := ["fff".toList]
  clears := false

theorem served_alone_sample :
    NumericsByRow realNumerics ∧ MaskedWeighNothing realNumerics ∧ LayerByRow sampleBlock ∧
      fromGguf sampleEmbeddings [sampleBlock, sampleBlock] id id [0, 1] = some sampleModel ∧
      serve sampleEngine [⟨"one".toList, 8, false⟩, ⟨"two".toList, 40, true⟩,
          ⟨"three".toList, 8, false⟩] sampleModel =
        [⟨"one".toList, 8, false⟩, ⟨"two".toList, 40, true⟩, ⟨"three".toList, 8, false⟩].map
          (answerAlone sampleEngine sampleModel) := by
  have made : fromGguf sampleEmbeddings [sampleBlock, sampleBlock] id id [0, 1] =
      some sampleModel := rfl
  have byRow : ∀ block ∈ [sampleBlock, sampleBlock], LayerByRow block :=
    List.forall_mem_cons.mpr ⟨sample_by_row, fun _ member => by
      obtain rfl := List.mem_singleton.mp member
      exact sample_by_row⟩
  exact ⟨real_by_row, real_masked, sample_by_row, made,
    served_alone real_by_row real_masked byRow id_by_row made _⟩

end KeryxMiner.ServedAnswers
