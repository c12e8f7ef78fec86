import KeryxMiner.CausalLayers

/-!
`forward_attn` and `forward` of `src/quantized_llama_split.rs` and `src/quantized_qwen3_split.rs`,
with the key/value cache of each block and the devices the blocks are spread over. What the tensor
library computes for a tensor is a parameter, and nothing is said here of how a row of a result
depends on the batch it is in; a batch is one sequence.
-/

namespace KeryxMiner.SplitForward

open CausalLayers

def maxSeqLen : Nat := 4096

inductive ForwardError where
  | index
  | narrow
  | shapeMismatch
  | deviceMismatch
  deriving DecidableEq

abbrev Rows (Number : Type) := List (List Number)

/-- A tensor of heads, each with its rows. -/
abbrev Heads (Number : Type) := List (Rows Number)

/-- The operations between tensors. -/
structure Numerics (Number : Type) where
  negInf : Number
  /-- Queries and keys, divided by the root of the head's dimension. -/
  score : Nat → Heads Number → Heads Number → Heads Number
  softmaxLastDim : Heads Number → Heads Number
  /-- Weights and the values they weigh. -/
  matmul : Heads Number → Heads Number → Heads Number
  add : Rows Number → Rows Number → Rows Number
  siluMul : Rows Number → Rows Number → Rows Number

/-- The key and the value heads of one position. -/
structure Entry (Number : Type) where
  k : List (List Number)
  v : List (List Number)

structure Mlp (Number : Type) where
  feedForwardW1 : Rows Number → Rows Number
  feedForwardW2 : Rows Number → Rows Number
  feedForwardW3 : Rows Number → Rows Number

structure LayerWeights (Number : Type) where
  attentionWq : Rows Number → Rows Number
  attentionWk : Rows Number → Rows Number
  attentionWv : Rows Number → Rows Number
  attentionWo : Rows Number → Rows Number
  attentionNorm : Rows Number → Rows Number
  mlp : Mlp Number
  ffnNorm : Rows Number → Rows Number
  /-- `q_norm` and `k_norm` of the qwen3 fork. -/
  headNorms : Option ((Rows Number → Rows Number) × (Rows Number → Rows Number))
  nHead : Nat
  nKvHead : Nat
  headDim : Nat
  /-- The rotation of heads by the tables from a position on. -/
  rope : Nat → Heads Number → Heads Number
  kvCache : Option (List (Entry Number))
  device : Nat
  deviceIdx : Nat

/-- Rows and the device they are on. -/
structure Hidden (Number : Type) where
  device : Nat
  rows : Rows Number

structure Mask where
  device : Nat
  bits : List (List Bool)

variable {Number : Type}

def Hidden.toDevice (hidden : Hidden Number) (device : Nat) : Hidden Number :=
  if hidden.device = device then hidden else { hidden with device }

theorem device_rows (hidden : Hidden Number) (device : Nat) :
    (hidden.toDevice device).rows = hidden.rows := by
  rw [Hidden.toDevice]
  split <;> rfl

def Mlp.forward (numerics : Numerics Number) (mlp : Mlp Number) (x : Rows Number) : Rows Number :=
  mlp.feedForwardW2 (numerics.siluMul (mlp.feedForwardW1 x) (mlp.feedForwardW3 x))

/-! Attention. -/

/-- `reshape` and `transpose`: the rows of each head. -/
def heads (count dim : Nat) (x : Rows Number) : Heads Number :=
  (List.range count).map fun h => x.map fun row => (row.drop (h * dim)).take dim

/-- The norm of the qwen3 fork, between `flatten` and `reshape`. -/
def normHeads (norm : Option (Rows Number → Rows Number)) (seqLen : Nat) (x : Heads Number) :
    Heads Number :=
  match norm with
  | none => x
  | some norm =>
      let flat := norm x.flatten
      (List.range x.length).map fun h => (flat.drop (h * seqLen)).take seqLen

/-- The heads of queries or keys at their positions. -/
def LayerWeights.rotated (layer : LayerWeights Number) (count : Nat)
    (norm : Option (Rows Number → Rows Number)) (indexPos seqLen : Nat) (x : Rows Number) :
    Heads Number :=
  layer.rope indexPos (normHeads norm seqLen (heads count layer.headDim x))

def LayerWeights.queries (layer : LayerWeights Number) (indexPos : Nat) (x : Rows Number) :
    Heads Number :=
  layer.rotated layer.nHead (layer.headNorms.map Prod.fst) indexPos x.length (layer.attentionWq x)

/-- The keys and values of new rows, by position. -/
def LayerWeights.fresh (layer : LayerWeights Number) (indexPos : Nat) (x : Rows Number) :
    List (Entry Number) :=
  let k := layer.rotated layer.nKvHead (layer.headNorms.map Prod.snd) indexPos x.length
    (layer.attentionWk x)
  let v := heads layer.nKvHead layer.headDim (layer.attentionWv x)
  (List.range x.length).map fun i =>
    { k := k.map fun head => head.getD i []
      v := v.map fun head => head.getD i [] }

/-- `repeat_kv`: the head of keys and values that a query head reads. -/
def LayerWeights.kvHead (layer : LayerWeights Number) (h : Nat) : Nat :=
  h / (layer.nHead / layer.nKvHead)

def LayerWeights.keys (layer : LayerWeights Number) (h : Nat) (entries : List (Entry Number)) :
    Rows Number :=
  entries.map fun entry => entry.k.getD (layer.kvHead h) []

def LayerWeights.values (layer : LayerWeights Number) (h : Nat) (entries : List (Entry Number)) :
    Rows Number :=
  entries.map fun entry => entry.v.getD (layer.kvHead h) []

/-- The scores of a row under its row of the mask. -/
def maskedRow (numerics : Numerics Number) (bits : List Bool) (att : List Number) :
    List Number :=
  List.zipWith (fun masked score => if masked then numerics.negInf else score) bits att

/-- The mask is the same for every head. -/
def maskedFill (numerics : Numerics Number) (bits : Option (List (List Bool)))
    (att : Heads Number) : Heads Number :=
  match bits with
  | none => att
  | some bits => att.map fun head => List.zipWith (maskedRow numerics) bits head

/-- `transpose` and `reshape`: the heads of each row after one another. -/
def merged (seqLen : Nat) (y : Heads Number) : Rows Number :=
  (List.range seqLen).map fun i => y.flatMap fun head => head.getD i []

def attend (numerics : Numerics Number) (layer : LayerWeights Number)
    (bits : Option (List (List Bool))) (seqLen : Nat) (queries : Heads Number)
    (entries : List (Entry Number)) : Rows Number :=
  let att := numerics.score layer.headDim queries
    ((List.range layer.nHead).map fun h => layer.keys h entries)
  let att := numerics.softmaxLastDim (maskedFill numerics bits att)
  let y := numerics.matmul att ((List.range layer.nHead).map fun h => layer.values h entries)
  layer.attentionWo (merged seqLen y)

/-- The keys and values up to the new rows; the cache starts over at position 0. -/
def LayerWeights.extended (layer : LayerWeights Number) (indexPos : Nat)
    (fresh : List (Entry Number)) : List (Entry Number) :=
  match layer.kvCache with
  | none => fresh
  | some cached => if indexPos = 0 then fresh else cached ++ fresh

def forwardAttn (numerics : Numerics Number) (layer : LayerWeights Number) (x : Rows Number)
    (mask : Option Mask) (indexPos : Nat) :
    Except ForwardError (Rows Number) × LayerWeights Number :=
  if maxSeqLen < indexPos + x.length then (.error .narrow, layer)
  else
    let queries := layer.queries indexPos x
    let entries := layer.extended indexPos (layer.fresh indexPos x)
    let layer := { layer with kvCache := some entries }
    match mask with
    | none => (.ok (attend numerics layer none x.length queries entries), layer)
    | some mask =>
        if mask.bits.length ≠ entries.length then (.error .shapeMismatch, layer)
        else if mask.device ≠ layer.device then (.error .deviceMismatch, layer)
        else (.ok (attend numerics layer (some mask.bits) x.length queries entries), layer)

/-! The blocks. -/

/-- The body of the loop over the blocks. -/
def blockForward (numerics : Numerics Number) (masks : List (Option Mask)) (indexPos : Nat)
    (layer : LayerWeights Number) (hidden : Hidden Number) :
    Except ForwardError (Hidden Number) × LayerWeights Number :=
  let residual := (hidden.toDevice layer.device).rows
  match masks[layer.deviceIdx]? with
  | none => (.error .index, layer)
  | some mask =>
      match forwardAttn numerics layer (layer.attentionNorm residual) mask indexPos with
      | (.error failed, layer) => (.error failed, layer)
      | (.ok attn, layer) =>
          let residual := numerics.add attn residual
          let x := layer.mlp.forward numerics (layer.ffnNorm residual)
          (.ok ⟨layer.device, numerics.add x residual⟩, layer)

def blocksForward (numerics : Numerics Number) (masks : List (Option Mask)) (indexPos : Nat) :
    List (LayerWeights Number) → Hidden Number →
      Except ForwardError (Hidden Number) × List (LayerWeights Number)
  | [], hidden => (.ok hidden, [])
  | layer :: layers, hidden =>
      match blockForward numerics masks indexPos layer hidden with
      | (.error failed, layer) => (.error failed, layer :: layers)
      | (.ok hidden, layer) =>
          let rest := blocksForward numerics masks indexPos layers hidden
          (rest.1, layer :: rest.2)

structure ModelWeights (Number : Type) where
  tokEmbeddings : UInt32 → Option (List Number)
  layers : List (LayerWeights Number)
  norm : Rows Number → Rows Number
  output : Rows Number → Rows Number
  masks : List ((Nat × Nat) × Mask)
  devices : List Nat

/-- Bit `j` of row `i` hides the position `j` from the position `i`. -/
def causalBits (t : Nat) : List (List Bool) :=
  (List.range t).map fun i => (List.range t).map fun j => decide (i < j)

def ModelWeights.mask (model : ModelWeights Number) (t deviceIdx device : Nat) :
    Mask × ModelWeights Number :=
  match model.masks.lookup (t, deviceIdx) with
  | some mask => (mask, model)
  | none =>
      let mask := ⟨device, causalBits t⟩
      (mask, { model with masks := ((t, deviceIdx), mask) :: model.masks })

/-- The masks of the devices from one on. -/
def ModelWeights.masksFrom (t : Nat) :
    List Nat → Nat → ModelWeights Number → List (Option Mask) × ModelWeights Number
  | [], _, model => ([], model)
  | device :: devices, deviceIdx, model =>
      let first := model.mask t deviceIdx device
      let rest := masksFrom t devices (deviceIdx + 1) first.2
      (some first.1 :: rest.1, rest.2)

/-- The norm and the head, on the last device, of the last row. -/
def ModelWeights.finish (model : ModelWeights Number) (lastDevice : Nat) :
    Except ForwardError (Hidden Number) × List (LayerWeights Number) →
      Except ForwardError (List Number) × ModelWeights Number
  | (.error failed, layers) => (.error failed, { model with layers })
  | (.ok hidden, layers) =>
      match (model.norm (hidden.toDevice lastDevice).rows).getLast? with
      | none => (.error .index, { model with layers })
      | some row => (.ok ((model.output [row]).headD []), { model with layers })

def forward (numerics : Numerics Number) (model : ModelWeights Number) (x : List UInt32)
    (indexPos : Nat) : Except ForwardError (List Number) × ModelWeights Number :=
  let (masks, model) :=
    if x.length = 1 then (List.replicate model.devices.length none, model)
    else model.masksFrom x.length model.devices 0
  match model.devices.head?, model.devices.getLast?, x.mapM model.tokEmbeddings with
  | some firstDevice, some lastDevice, some rows =>
      model.finish lastDevice
        (blocksForward numerics masks indexPos model.layers ⟨firstDevice, rows⟩)
  | _, _, _ => (.error .index, model)

/-- The qwen3 fork has it; the llama fork starts over at position 0 alone. -/
def ModelWeights.clearKvCache (model : ModelWeights Number) : ModelWeights Number :=
  { model with layers := model.layers.map fun layer => { layer with kvCache := none } }

/-! `from_gguf`: the blocks are spread evenly over the devices. -/

def spread (devices : List Nat) (blocks : List (LayerWeights Number)) :
    List (LayerWeights Number) :=
  blocks.mapIdx fun i block =>
    let deviceIdx := i * devices.length / blocks.length
    { block with kvCache := none, device := devices.getD deviceIdx 0, deviceIdx }

/-- An empty list of devices is refused. -/
def fromGguf (tokEmbeddings : UInt32 → Option (List Number)) (blocks : List (LayerWeights Number))
    (norm output : Rows Number → Rows Number) (devices : List Nat) :
    Option (ModelWeights Number) :=
  if devices = [] then none
  else some {
    tokEmbeddings
    layers := spread devices blocks
    norm
    output
    masks := []
    devices }

end KeryxMiner.SplitForward
