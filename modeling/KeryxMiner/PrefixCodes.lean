import KeryxMiner.ByteCodec

/-!
Streams that are parsed from the front. A part of a stream separates the values it
is written from when equal streams that start with it agree on what is seen of the
values and on what follows, so parts can be put one after another.
-/

namespace KeryxMiner.PrefixCodes

open ByteCodec

variable {Symbol Value Other Seen Shown : Type}

/-- Among `valid` values, a stream that starts with `write value` fixes `seen value`
and the rest of the stream. -/
def Separates (valid : Value → Prop) (seen : Value → Seen) (write : Value → List Symbol) : Prop :=
  ∀ left right, valid left → valid right → ∀ restLeft restRight,
    write left ++ restLeft = write right ++ restRight →
      seen left = seen right ∧ restLeft = restRight

variable {valid : Value → Prop} {seen : Value → Seen} {shown : Value → Shown}
  {write more : Value → List Symbol}

/-- Nothing has to follow: the part alone fixes what is seen. -/
theorem Separates.injective (separates : Separates valid seen write) {left right : Value}
    (validLeft : valid left) (validRight : valid right) (same : write left = write right) :
    seen left = seen right :=
  (separates left right validLeft validRight [] [] (by rw [same])).1

theorem Separates.append (first : Separates valid seen write)
    (second : Separates valid shown more) :
    Separates valid (fun value => (seen value, shown value))
      fun value => write value ++ more value := by
  intro left right validLeft validRight restLeft restRight same
  rw [List.append_assoc, List.append_assoc] at same
  obtain ⟨seenSame, tails⟩ := first left right validLeft validRight _ _ same
  obtain ⟨shownSame, rests⟩ := second left right validLeft validRight _ _ tails
  exact ⟨Prod.ext seenSame shownSame, rests⟩

/-- A part of a field is a part of the record that has the field. -/
theorem Separates.field (separates : Separates valid seen write) (get : Other → Value)
    {validOther : Other → Prop} (carries : ∀ value, validOther value → valid (get value)) :
    Separates validOther (fun value => seen (get value)) fun value => write (get value) :=
  fun left right validLeft validRight =>
    separates (get left) (get right) (carries left validLeft) (carries right validRight)

/-- What is seen can be seen in another way. -/
theorem Separates.view (separates : Separates valid seen write)
    (fixes : ∀ left right, seen left = seen right → shown left = shown right) :
    Separates valid shown write := by
  intro left right validLeft validRight restLeft restRight same
  obtain ⟨seenSame, rests⟩ := separates left right validLeft validRight _ _ same
  exact ⟨fixes left right seenSame, rests⟩

theorem separates_sized (size : Nat) (sized : ∀ value, valid value → (write value).length = size)
    (fixes : ∀ left right, valid left → valid right → write left = write right →
      seen left = seen right) : Separates valid seen write := by
  intro left right validLeft validRight restLeft restRight same
  have lengths : (write left).length = (write right).length := by
    rw [sized left validLeft, sized right validRight]
  obtain ⟨words, rests⟩ := List.append_inj same lengths
  exact ⟨fixes left right validLeft validRight words, rests⟩

theorem separates_word (width : Nat) (number : Value → Nat)
    (small : ∀ value, valid value → number value < 256 ^ width) :
    Separates valid number fun value => encode width (number value) := by
  apply separates_sized width
  · intro value _
    exact encode_length width (number value)
  · intro left right validLeft validRight same
    have decoded := congrArg decode same
    rwa [decode_encode, decode_encode, Nat.mod_eq_of_lt (small left validLeft),
      Nat.mod_eq_of_lt (small right validRight)] at decoded

theorem separates_bytes (size : Nat) (record : Value → Bytes size) :
    Separates valid record fun value => (record value).items := by
  apply separates_sized size
  · intro value _
    exact (record value).sized
  · intro left right _ _ same
    exact FixedArray.ext same

theorem separates_var_bytes (width : Nat) (bytes : Value → List UInt8)
    (small : ∀ value, valid value → (bytes value).length < 256 ^ width) :
    Separates valid bytes fun value => encode width (bytes value).length ++ bytes value := by
  intro left right validLeft validRight restLeft restRight same
  rw [List.append_assoc, List.append_assoc] at same
  obtain ⟨count, tails⟩ := separates_word width (fun value => (bytes value).length) small left right
    validLeft validRight _ _ same
  exact List.append_inj tails count

/-- Items of one known number, one after another. -/
theorem Separates.items (separates : Separates valid seen write) (left right : List Value)
    (count : left.length = right.length) (validLeft : ∀ value ∈ left, valid value)
    (validRight : ∀ value ∈ right, valid value) (restLeft restRight : List Symbol)
    (same : left.flatMap write ++ restLeft = right.flatMap write ++ restRight) :
    left.map seen = right.map seen ∧ restLeft = restRight := by
  induction left generalizing right with
  | nil =>
      obtain rfl : right = [] := List.length_eq_zero_iff.mp count.symm
      exact ⟨rfl, same⟩
  | cons first firsts ih =>
      cases right with
      | nil => simp at count
      | cons second seconds =>
          rw [List.flatMap_cons, List.flatMap_cons, List.append_assoc, List.append_assoc] at same
          obtain ⟨heads, tails⟩ := separates first second (validLeft first List.mem_cons_self)
            (validRight second List.mem_cons_self) _ _ same
          obtain ⟨others, rests⟩ := ih seconds (by simpa using count)
            (fun value member => validLeft value (List.mem_cons_of_mem first member))
            (fun value member => validRight value (List.mem_cons_of_mem second member)) tails
          exact ⟨by rw [List.map_cons, List.map_cons, heads, others], rests⟩

/-- A count in front makes a list of any length a part. -/
def counted (width : Nat) (write : Value → List UInt8) (values : List Value) : List UInt8 :=
  encode width values.length ++ values.flatMap write

def Countable (width : Nat) (valid : Value → Prop) (values : List Value) : Prop :=
  values.length < 256 ^ width ∧ ∀ value ∈ values, valid value

theorem Separates.counted {write : Value → List UInt8} (width : Nat)
    (separates : Separates valid seen write) :
    Separates (Countable width valid) (List.map seen) (counted width write) := by
  intro left right validLeft validRight restLeft restRight same
  unfold PrefixCodes.counted at same
  rw [List.append_assoc, List.append_assoc] at same
  obtain ⟨count, tails⟩ := separates_word width List.length
    (fun values (countable : Countable width valid values) => countable.1) left right validLeft
    validRight _ _ same
  exact separates.items left right count validLeft.2 validRight.2 restLeft restRight tails

/-! Values parsed one by one before they are written. -/

theorem map_m_parsed {parse : Value → Option Other} {values : List Value} {parsed : List Other}
    (all : values.mapM parse = some parsed) :
    parsed.length = values.length ∧
      ∀ result ∈ parsed, ∃ value ∈ values, parse value = some result := by
  induction values generalizing parsed with
  | nil =>
      obtain rfl := Option.some.inj all
      simp
  | cons value values ih =>
      rw [List.mapM_cons] at all
      obtain ⟨head, first, others⟩ := Option.bind_eq_some_iff.mp all
      obtain ⟨tail, tailParsed, collected⟩ := Option.bind_eq_some_iff.mp others
      obtain rfl := Option.some.inj collected
      obtain ⟨length, sources⟩ := ih tailParsed
      refine ⟨by simp [length], fun result member => ?_⟩
      rcases List.mem_cons.mp member with rfl | later
      · exact ⟨value, List.mem_cons_self, first⟩
      · obtain ⟨source, present, found⟩ := sources result later
        exact ⟨source, List.mem_cons_of_mem value present, found⟩

theorem map_m_map (parse : Value → Option Other) (render : Other → Shown) (values : List Value) :
    (values.mapM fun value => (parse value).map render) =
      (values.mapM parse).map (List.map render) := by
  induction values with
  | nil => rfl
  | cons value values ih =>
      rw [List.mapM_cons, List.mapM_cons, ih]
      cases parse value with
      | none => rfl
      | some head => cases values.mapM parse <;> rfl

end KeryxMiner.PrefixCodes
