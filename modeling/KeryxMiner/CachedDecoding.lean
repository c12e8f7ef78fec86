import KeryxMiner.PrefixCodes
import KeryxMiner.SplitCausality

/-!
Decoding with the caches of a resident model. Whatever earlier requests left in the caches and
the masks, a pass over a prompt and every later pass over one token give the numbers of one pass
of a freshly loaded model over all tokens so far.
-/

namespace KeryxMiner.CachedDecoding

open CausalLayers PrefixCodes SplitCausality SplitForward SplitRows

variable {Number : Type}

/-! The blocks as one stack. -/

def withCaches (layers : List (LayerWeights Number)) (kepts : List (List (Entry Number))) :
    List (LayerWeights Number) :=
  List.zipWith (fun layer kept => { layer with kvCache := some kept }) layers kepts

section Blocks
variable {numerics : Numerics Number}

theorem blocks_run (numericsByRow : NumericsByRow numerics)
    (weightless : MaskedWeighNothing numerics) {masks : List (Option Mask)}
    {indexPos : Nat} {layers : List (LayerWeights Number)}
    (byRow : ∀ layer ∈ layers, LayerByRow layer) (hidden : Hidden Number)
    (chosen : ∀ layer ∈ layers, ∃ mask, masks[layer.deviceIdx]? = some mask ∧
      MaskedFor indexPos hidden.rows.length layer.device mask)
    (short : layers ≠ [] → indexPos + hidden.rows.length ≤ maxSeqLen)
    (held : ∀ layer ∈ layers, (heldAt indexPos layer).length = indexPos) :
    ∃ device, blocksForward numerics masks indexPos layers hidden =
      (.ok ⟨device, (runStack (layers.map (causal numerics)) (layers.map (heldAt indexPos))
          hidden.rows).1⟩,
        withCaches layers (runStack (layers.map (causal numerics))
          (layers.map (heldAt indexPos)) hidden.rows).2) := by
  induction layers generalizing hidden with
  | nil => exact ⟨hidden.device, rfl⟩
  | cons layer layers ih =>
      obtain ⟨mask, own, masked⟩ := chosen layer (List.mem_cons_self ..)
      have fits := short (List.cons_ne_nil _ _)
      have first := block_runs numericsByRow weightless (byRow layer (List.mem_cons_self ..)) own
        masked fits (held layer (List.mem_cons_self ..))
      have count := run_length (causal numerics layer) (heldAt indexPos layer) hidden.rows
      obtain ⟨device, rest⟩ := ih (fun other member => byRow other (List.mem_cons_of_mem _ member))
        ⟨layer.device, ((causal numerics layer).run (heldAt indexPos layer) hidden.rows).1⟩
        (fun other member => by
          rw [count]
          exact chosen other (List.mem_cons_of_mem _ member))
        (fun _ => by rw [count]; exact fits)
        (fun other member => held other (List.mem_cons_of_mem _ member))
      refine ⟨device, ?_⟩
      rw [blocksForward, first]
      dsimp only
      rw [rest]
      rfl

theorem blocks_narrow {masks : List (Option Mask)} {indexPos : Nat}
    {layers : List (LayerWeights Number)} (byRow : ∀ layer ∈ layers, LayerByRow layer)
    {hidden : Hidden Number}
    (chosen : ∀ layer ∈ layers, ∃ mask, masks[layer.deviceIdx]? = some mask)
    (several : layers ≠ []) (long : maxSeqLen < indexPos + hidden.rows.length) :
    (blocksForward numerics masks indexPos layers hidden).1 = .error .narrow := by
  cases layers with
  | nil => exact absurd rfl several
  | cons layer layers =>
      obtain ⟨mask, own⟩ := chosen layer (List.mem_cons_self ..)
      rw [blocksForward, block_narrow (byRow layer (List.mem_cons_self ..)) own long]

end Blocks

/-! The causal masks are made once for a length and a device. -/

def MasksTrue (devices : List Nat) (masks : List ((Nat × Nat) × Mask)) : Prop :=
  ∀ t deviceIdx mask, masks.lookup (t, deviceIdx) = some mask →
    ∃ device, devices[deviceIdx]? = some device ∧ mask = ⟨device, causalBits t⟩

theorem mask_true {model : ModelWeights Number} {t deviceIdx device : Nat}
    (masked : MasksTrue model.devices model.masks)
    (there : model.devices[deviceIdx]? = some device) :
    (model.mask t deviceIdx device).1 = ⟨device, causalBits t⟩ ∧
      ∃ masks, MasksTrue model.devices masks ∧
        (model.mask t deviceIdx device).2 = { model with masks } := by
  rw [ModelWeights.mask]
  cases known : model.masks.lookup (t, deviceIdx) with
  | some mask =>
      obtain ⟨other, found, same⟩ := masked t deviceIdx mask known
      obtain rfl := Option.some.inj (there.symm.trans found)
      exact ⟨same, model.masks, masked, rfl⟩
  | none =>
      refine ⟨rfl, _, ?_, rfl⟩
      intro count idx mask found
      rw [List.lookup_cons] at found
      split at found
      · rename_i same
        obtain ⟨rfl, rfl⟩ := Prod.mk.inj (eq_of_beq same)
        exact ⟨device, there, (Option.some.inj found).symm⟩
      · exact masked count idx mask found

theorem masks_from_true (t : Nat) (before : List Nat) (model : ModelWeights Number)
    {devices : List Nat}
    (masked : MasksTrue model.devices model.masks) (split : model.devices = before ++ devices) :
    (ModelWeights.masksFrom t devices before.length model).1 =
        devices.map (fun device => some ⟨device, causalBits t⟩) ∧
      ∃ masks, MasksTrue model.devices masks ∧
        (ModelWeights.masksFrom t devices before.length model).2 = { model with masks } := by
  induction devices generalizing before model with
  | nil => exact ⟨rfl, model.masks, masked, rfl⟩
  | cons device devices ih =>
      have there : model.devices[before.length]? = some device := by
        rw [split, List.getElem?_append_right (Nat.le_refl _), Nat.sub_self]
        rfl
      obtain ⟨own, masks, kept, after⟩ := mask_true (t := t) masked there
      have next := ih (before ++ [device]) { model with masks } kept (by
        rw [split, List.append_assoc]
        rfl)
      rw [List.length_append, List.length_singleton] at next
      rw [ModelWeights.masksFrom]
      dsimp only
      rw [own, after, next.1]
      exact ⟨rfl, next.2⟩

/-! A forward pass. -/

/-- Every block is on one of the devices, under the device's index, and computes row by row. -/
structure Wired (model : ModelWeights Number) : Prop where
  byRow : ∀ layer ∈ model.layers, LayerByRow layer
  norm : RowByRow model.norm
  some_device : model.devices ≠ []
  placed : ∀ layer ∈ model.layers, model.devices[layer.deviceIdx]? = some layer.device
  masked : MasksTrue model.devices model.masks

/-- What the last row of a pass gives, from what the blocks have kept. -/
def lastNumbers (numerics : Numerics Number) (model : ModelWeights Number)
    (kepts : List (List (Entry Number))) (rows : Rows Number) (indexPos : Nat) :
    Option (List Number) :=
  if model.layers ≠ [] ∧ maxSeqLen < indexPos + rows.length then none
  else (runStack (model.layers.map (causal numerics)) kepts rows).1.getLast?.map fun row =>
    (model.output [alone model.norm row]).headD []

section Forward
variable {numerics : Numerics Number}

theorem masks_chosen {model : ModelWeights Number} (wired : Wired model) {x : List UInt32}
    {indexPos : Nat} (whole : indexPos = 0 ∨ x.length = 1) :
    ∃ chosen masks, MasksTrue model.devices masks ∧
      (if x.length = 1 then (List.replicate model.devices.length none, model)
        else model.masksFrom x.length model.devices 0) = (chosen, { model with masks }) ∧
      ∀ layer ∈ model.layers, ∃ mask, chosen[layer.deviceIdx]? = some mask ∧
        MaskedFor indexPos x.length layer.device mask := by
  by_cases single : x.length = 1
  · refine ⟨_, model.masks, wired.masked, if_pos single, fun layer member => ?_⟩
    obtain ⟨inside, _⟩ := List.getElem?_eq_some_iff.mp (wired.placed layer member)
    exact ⟨none, by rw [List.getElem?_replicate, if_pos inside],
      by rw [MaskedFor, if_pos single]⟩
  · obtain ⟨own, masks, kept, after⟩ := masks_from_true x.length [] model wired.masked rfl
    refine ⟨_, masks, kept, by rw [if_neg single]; exact Prod.ext own after, ?_⟩
    intro layer member
    refine ⟨_, by rw [List.getElem?_map, wired.placed layer member]; rfl, ?_⟩
    rw [MaskedFor, if_neg single]
    exact ⟨whole.resolve_right single, rfl⟩

/-- What a pass gives and what it leaves. -/
structure Passed (numerics : Numerics Number) (model : ModelWeights Number)
    (rows : Rows Number) (indexPos : Nat)
    (result : Except ForwardError (List Number) × ModelWeights Number) : Prop where
  numbers : result.1.toOption =
    lastNumbers numerics model (model.layers.map (heldAt indexPos)) rows indexPos
  leaves : result.1.toOption.isSome → ∃ masks, MasksTrue model.devices masks ∧
    result.2 = { model with
      masks
      layers := withCaches model.layers (runStack (model.layers.map (causal numerics))
        (model.layers.map (heldAt indexPos)) rows).2 }

/-- A pass is the norm and the head after the blocks. -/
theorem forward_finishes (numerics : Numerics Number) (indexPos : Nat)
    {model : ModelWeights Number} (wired : Wired model) {x : List UInt32}
    {rows : Rows Number} {masks : List (Option Mask)}
    {kept : List ((Nat × Nat) × Mask)} (embedded : x.mapM model.tokEmbeddings = some rows)
    (made : (if x.length = 1 then (List.replicate model.devices.length none, model)
      else model.masksFrom x.length model.devices 0) = (masks, { model with masks := kept })) :
    ∃ firstDevice lastDevice, forward numerics model x indexPos =
      ModelWeights.finish { model with masks := kept } lastDevice
        (blocksForward numerics masks indexPos model.layers ⟨firstDevice, rows⟩) := by
  obtain ⟨firstDevice, first⟩ : ∃ device, model.devices.head? = some device := by
    cases devices : model.devices with
    | nil => exact absurd devices wired.some_device
    | cons device devices => exact ⟨device, rfl⟩
  obtain ⟨lastDevice, last⟩ : ∃ device, model.devices.getLast? = some device :=
    ⟨_, List.getLast?_eq_some_getLast wired.some_device⟩
  refine ⟨firstDevice, lastDevice, ?_⟩
  rw [forward, made]
  dsimp only
  rw [first, last, embedded]

/-- What the head makes of the blocks' rows. -/
theorem finish_passes {model : ModelWeights Number} (norm : RowByRow model.norm)
    {rows : Rows Number} {indexPos : Nat}
    {kept : List ((Nat × Nat) × Mask)} (truthful : MasksTrue model.devices kept)
    (fits : ¬ (model.layers ≠ [] ∧ maxSeqLen < indexPos + rows.length))
    (device lastDevice : Nat) :
    Passed numerics model rows indexPos
      (ModelWeights.finish { model with masks := kept } lastDevice
        (.ok ⟨device, (runStack (model.layers.map (causal numerics))
            (model.layers.map (heldAt indexPos)) rows).1⟩,
          withCaches model.layers (runStack (model.layers.map (causal numerics))
            (model.layers.map (heldAt indexPos)) rows).2)) := by
  have numbers : lastNumbers numerics model (model.layers.map (heldAt indexPos)) rows indexPos =
      (runStack (model.layers.map (causal numerics)) (model.layers.map (heldAt indexPos))
        rows).1.getLast?.map fun row => (model.output [alone model.norm row]).headD [] :=
    if_neg fits
  rw [ModelWeights.finish, device_rows, norm, List.getLast?_map]
  cases ended : (runStack (model.layers.map (causal numerics))
      (model.layers.map (heldAt indexPos)) rows).1.getLast? with
  | none =>
      rw [ended] at numbers
      exact ⟨numbers.symm, fun passed => (Bool.false_ne_true passed).elim⟩
  | some row =>
      rw [ended] at numbers
      exact ⟨numbers.symm, fun _ => ⟨kept, truthful, rfl⟩⟩

theorem forward_passes (numericsByRow : NumericsByRow numerics)
    (weightless : MaskedWeighNothing numerics) {model : ModelWeights Number} (wired : Wired model)
    {x : List UInt32} {rows : Rows Number} {indexPos : Nat}
    (embedded : x.mapM model.tokEmbeddings = some rows) (whole : indexPos = 0 ∨ x.length = 1)
    (held : ∀ layer ∈ model.layers, (heldAt indexPos layer).length = indexPos) :
    Passed numerics model rows indexPos (forward numerics model x indexPos) := by
  have count : rows.length = x.length := (map_m_parsed embedded).1
  obtain ⟨masks, kept, truthful, made, chosen⟩ := masks_chosen wired whole
  obtain ⟨firstDevice, lastDevice, start⟩ :=
    forward_finishes numerics indexPos wired embedded made
  by_cases narrow : model.layers ≠ [] ∧ maxSeqLen < indexPos + rows.length
  · have failed : (blocksForward numerics masks indexPos model.layers ⟨firstDevice, rows⟩).1 =
        .error .narrow :=
      blocks_narrow wired.byRow
        (fun layer member => (chosen layer member).imp fun _ own => own.1) narrow.1 narrow.2
    cases ran : blocksForward numerics masks indexPos model.layers ⟨firstDevice, rows⟩ with
    | mk result layers =>
        rw [ran] at failed start
        dsimp only at failed
        subst failed
        rw [start]
        exact ⟨(if_pos narrow).symm, fun passed => (Bool.false_ne_true passed).elim⟩
  · obtain ⟨device, ran⟩ := blocks_run numericsByRow weightless wired.byRow ⟨firstDevice, rows⟩
      (fun layer member => (chosen layer member).imp fun _ own =>
        ⟨own.1, by rw [count]; exact own.2⟩)
      (fun several => Nat.le_of_not_lt fun long => narrow ⟨several, long⟩) held
    rw [start, ran]
    exact finish_passes wired.norm truthful narrow device lastDevice

end Forward

/-! Passes of a resident model, from what earlier passes left. -/

/-- The model as it is loaded. -/
def loaded (model : ModelWeights Number) : ModelWeights Number :=
  { model.clearKvCache with masks := [] }

/-- The numbers of one pass over all tokens. -/
def numbersOf (numerics : Numerics Number) (model : ModelWeights Number)
    (tokens : List UInt32) : Option (List Number) := do
  let rows ← tokens.mapM model.tokEmbeddings
  lastNumbers numerics model [] rows 0

theorem numbers_loaded (numerics : Numerics Number) (model : ModelWeights Number) :
    numbersOf numerics (loaded model) = numbersOf numerics model := by
  funext tokens
  have same : (loaded model).layers.map (causal numerics) =
      model.layers.map (causal numerics) := by
    rw [loaded, ModelWeights.clearKvCache, List.map_map]
    rfl
  have none_left : (loaded model).layers ≠ [] ↔ model.layers ≠ [] :=
    not_congr List.map_eq_nil_iff
  rw [numbersOf, numbersOf]
  congr 1
  funext rows
  rw [lastNumbers, lastNumbers, same]
  simp only [none_left]
  rfl

theorem wired_loaded {model : ModelWeights Number} (wired : Wired model) :
    Wired (loaded model) where
  byRow := by
    intro layer member
    obtain ⟨own, among, rfl⟩ := List.mem_map.mp member
    exact (wired.byRow own among).moved none own.device own.deviceIdx
  norm := wired.norm
  some_device := wired.some_device
  placed := by
    intro layer member
    obtain ⟨own, among, rfl⟩ := List.mem_map.mp member
    exact wired.placed own among
  masked := by
    intro t deviceIdx mask found
    cases found

/-- What `from_gguf` makes: every block has a device, and nothing is cached. -/
theorem made_wired {tokEmbeddings : UInt32 → Option (List Number)}
    {blocks : List (LayerWeights Number)} {norm output : Rows Number → Rows Number}
    {devices : List Nat} {model : ModelWeights Number}
    (byRow : ∀ block ∈ blocks, LayerByRow block) (normByRow : RowByRow norm)
    (made : fromGguf tokEmbeddings blocks norm output devices = some model) :
    Wired model ∧ loaded model = model := by
  rw [fromGguf] at made
  split at made
  · cases made
  · rename_i some_device
    obtain rfl := Option.some.inj made
    refine ⟨⟨?_, normByRow, some_device, ?_, fun _ _ _ found => by cases found⟩, ?_⟩
    · intro layer member
      obtain ⟨i, inside, rfl⟩ := List.mem_mapIdx.mp member
      exact (byRow _ (List.getElem_mem inside)).moved none _ _
    · intro layer member
      obtain ⟨i, inside, rfl⟩ := List.mem_mapIdx.mp member
      have within : i * devices.length / blocks.length < devices.length := by
        apply Nat.div_lt_of_lt_mul
        exact Nat.mul_lt_mul_of_pos_right inside (List.length_pos_iff.mpr some_device)
      dsimp only
      rw [List.getD_eq_getElem?_getD, List.getElem?_eq_getElem within, Option.getD_some]
    · rw [loaded, ModelWeights.clearKvCache]
      dsimp only
      congr 1
      apply List.ext_getElem
      · rw [List.length_map]
      · intro i _ _
        rw [List.getElem_map]
        simp only [spread, List.getElem_mapIdx]

theorem caches_member {layers : List (LayerWeights Number)}
    {kepts : List (List (Entry Number))} {own : LayerWeights Number}
    (member : own ∈ withCaches layers kepts) :
    ∃ layer ∈ layers, ∃ kept, own = { layer with kvCache := some kept } := by
  obtain ⟨i, found⟩ := List.mem_iff_getElem?.mp member
  rw [withCaches, List.getElem?_zipWith] at found
  split at found
  · rename_i layer kept own_layer _
    exact ⟨layer, List.mem_of_getElem? own_layer, kept, (Option.some.inj found).symm⟩
  · cases found

section Caches
variable {layers : List (LayerWeights Number)} {kepts : List (List (Entry Number))}
  (count : kepts.length = layers.length)
include count

theorem caches_map {Seen : Type} (see : LayerWeights Number → Seen)
    (blind : ∀ layer kept, see { layer with kvCache := some kept } = see layer) :
    (withCaches layers kepts).map see = layers.map see := by
  apply List.ext_getElem
  · simp only [withCaches, List.length_map, List.length_zipWith]
    omega
  · intro i _ _
    simp only [withCaches, List.getElem_map, List.getElem_zipWith, blind]

theorem caches_held {position : Nat} (later : position ≠ 0) :
    (withCaches layers kepts).map (heldAt position) = kepts := by
  apply List.ext_getElem
  · simp only [withCaches, List.length_map, List.length_zipWith]
    omega
  · intro i _ _
    simp only [withCaches, List.getElem_map, List.getElem_zipWith, heldAt, if_neg later,
      Option.getD_some]

end Caches

/-- The caches are those of one run over the tokens. -/
structure Continues (numerics : Numerics Number) (model : ModelWeights Number)
    (tokens : List UInt32) : Prop where
  wired : Wired model
  started : tokens ≠ []
  caches : ∃ rows, tokens.mapM model.tokEmbeddings = some rows ∧
    model.layers.map (heldAt tokens.length) =
      (runStack (model.layers.map (causal numerics)) [] rows).2

section Resident
variable {numerics : Numerics Number} {model : ModelWeights Number}

theorem left_loaded {kepts : List (List (Entry Number))}
    (count : kepts.length = model.layers.length) (masks : List ((Nat × Nat) × Mask)) :
    loaded { model with masks, layers := withCaches model.layers kepts } = loaded model := by
  rw [loaded, ModelWeights.clearKvCache]
  dsimp only
  rw [caches_map count _ fun _ _ => rfl]
  rfl

theorem left_wired (wired : Wired model) (kepts : List (List (Entry Number)))
    {masks : List ((Nat × Nat) × Mask)} (truthful : MasksTrue model.devices masks) :
    Wired { model with masks, layers := withCaches model.layers kepts } where
  byRow := by
    intro layer member
    obtain ⟨own, among, kept, rfl⟩ := caches_member member
    exact (wired.byRow own among).moved (some kept) own.device own.deviceIdx
  norm := wired.norm
  some_device := wired.some_device
  placed := by
    intro layer member
    obtain ⟨own, among, kept, rfl⟩ := caches_member member
    exact wired.placed own among
  masked := truthful

/-- What a pass answers: the numbers for the tokens, and a model that can be continued. -/
structure Answered (numerics : Numerics Number) (model : ModelWeights Number)
    (tokens : List UInt32) (result : Except ForwardError (List Number) × ModelWeights Number) :
    Prop where
  numbers : result.1.toOption = numbersOf numerics model tokens
  continues : result.1.toOption.isSome → Continues numerics result.2 tokens
  same : result.1.toOption.isSome → loaded result.2 = loaded model

theorem failed_answered {tokens : List UInt32}
    {result : Except ForwardError (List Number) × ModelWeights Number}
    (failed : result.1.toOption = none) (missing : numbersOf numerics model tokens = none) :
    Answered numerics model tokens result where
  numbers := failed.trans missing.symm
  continues := by
    rw [failed]
    intro passed
    cases passed
  same := by
    rw [failed]
    intro passed
    cases passed

/-- A pass whose caches become those of the run over `rows`. -/
theorem passed_answered (wired : Wired model) {tokens : List UInt32}
    {rows : Rows Number} (embedded : tokens.mapM model.tokEmbeddings = some rows)
    {result : Except ForwardError (List Number) × ModelWeights Number}
    (numbers : result.1.toOption = lastNumbers numerics model [] rows 0)
    (leaves : result.1.toOption.isSome → ∃ masks, MasksTrue model.devices masks ∧
      result.2 = { model with
        masks
        layers := withCaches model.layers
          (runStack (model.layers.map (causal numerics)) [] rows).2 }) :
    Answered numerics model tokens result := by
  obtain ⟨count, _⟩ := stack_kept (model.layers.map (causal numerics)) [] 0
    (fun _ _ => rfl) rows
  rw [List.length_map] at count
  have known : numbersOf numerics model tokens = lastNumbers numerics model [] rows 0 := by
    rw [numbersOf, embedded]
    rfl
  refine ⟨numbers.trans known.symm, fun passed => ?_, fun passed => ?_⟩
  · obtain ⟨masks, truthful, after⟩ := leaves passed
    have started : tokens ≠ [] := by
      rintro rfl
      obtain rfl := List.eq_nil_of_length_eq_zero (map_m_parsed embedded).1
      have nothing := stack_length (model.layers.map (causal numerics)) [] []
      rw [numbers, lastNumbers, List.eq_nil_of_length_eq_zero nothing] at passed
      split at passed
      · cases passed
      · cases passed
    rw [after]
    refine ⟨left_wired wired _ truthful, started, rows, embedded, ?_⟩
    dsimp only
    rw [caches_held count (List.length_pos_iff.mpr started).ne', caches_map count _ fun _ _ => rfl]
  · obtain ⟨masks, _, after⟩ := leaves passed
    rw [after, left_loaded count]

theorem not_embedded (wired : Wired model) {x : List UInt32}
    (outside : x.mapM model.tokEmbeddings = none) {indexPos : Nat}
    (whole : indexPos = 0 ∨ x.length = 1) :
    (forward numerics model x indexPos).1.toOption = none := by
  obtain ⟨chosen, masks, _, made, _⟩ := masks_chosen wired whole
  rw [forward, made]
  dsimp only
  rw [outside]
  cases model.devices.head? with
  | none => rfl
  | some firstDevice =>
      cases model.devices.getLast? with
      | none => rfl
      | some lastDevice => rfl

/-- A pass over a prompt, whatever the caches hold. -/
theorem prompt_answered (numericsByRow : NumericsByRow numerics)
    (weightless : MaskedWeighNothing numerics) (wired : Wired model)
    (tokens : List UInt32) :
    Answered numerics model tokens (forward numerics model tokens 0) := by
  cases embedded : tokens.mapM model.tokEmbeddings with
  | none =>
      exact failed_answered (not_embedded wired embedded (Or.inl rfl)) (by
        rw [numbersOf, embedded]
        rfl)
  | some rows =>
      have held : ∀ layer ∈ model.layers, heldAt 0 layer = [] := fun _ _ => rfl
      obtain ⟨numbers, leaves⟩ := forward_passes numericsByRow weightless wired embedded
        (Or.inl rfl) fun layer member => by rw [held layer member]; rfl
      have empty : ∀ kept ∈ model.layers.map (heldAt 0), kept = [] := by
        intro kept among
        obtain ⟨layer, member, rfl⟩ := List.mem_map.mp among
        exact held layer member
      have fresh := stack_fresh (model.layers.map (causal numerics)) empty rows
      rw [lastNumbers, fresh] at numbers
      rw [fresh] at leaves
      exact passed_answered wired embedded numbers leaves

theorem map_m_snoc {Source Value : Type} (read : Source → Option Value) (sources : List Source)
    (source : Source) :
    (sources ++ [source]).mapM read =
      (sources.mapM read).bind fun found => (read source).map fun value => found ++ [value] := by
  rw [List.mapM_append]
  cases sources.mapM read with
  | none => rfl
  | some found =>
      cases one : read source with
      | none => simp [one]
      | some value => simp [one]

/-- A pass over one more token. -/
theorem token_answered (numericsByRow : NumericsByRow numerics)
    (weightless : MaskedWeighNothing numerics) {tokens : List UInt32}
    (continues : Continues numerics model tokens) (next : UInt32) :
    Answered numerics model (tokens ++ [next])
      (forward numerics model [next] tokens.length) := by
  obtain ⟨wired, started, rows, embedded, caches⟩ := continues
  have extended := map_m_snoc model.tokEmbeddings tokens next
  rw [embedded, Option.bind_some] at extended
  cases known : model.tokEmbeddings next with
  | none =>
      rw [known] at extended
      exact failed_answered
        (not_embedded wired (by simp [known]) (Or.inr rfl))
        (by rw [numbersOf, extended]; rfl)
  | some row =>
      rw [known] at extended
      have single : [next].mapM model.tokEmbeddings = some [row] := by simp [known]
      have count : rows.length = tokens.length := (map_m_parsed embedded).1
      have lengths := (stack_kept (model.layers.map (causal numerics)) [] 0
        (fun _ _ => rfl) rows).2
      rw [← caches, count, Nat.zero_add] at lengths
      obtain ⟨numbers, leaves⟩ := forward_passes numericsByRow weightless wired single (Or.inr rfl)
        fun layer member => lengths _ (List.mem_map_of_mem member)
      rw [caches] at numbers leaves
      have last := stack_last (model.layers.map (causal numerics)) [] rows row
      have whole := stack_append (model.layers.map (causal numerics)) [] rows [row]
      refine passed_answered wired extended ?_ ?_
      · rw [numbers, lastNumbers, lastNumbers, last, List.length_append, count, Nat.zero_add]
      · rw [whole]
        exact leaves

end Resident

end KeryxMiner.CachedDecoding
