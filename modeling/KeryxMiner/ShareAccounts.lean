import KeryxMiner.StratumShares
import Mathlib.Data.List.Basic

/-!
What becomes of the shares that a Stratum client submits. Beside the client a
ledger tells which share each pending id stands for.
-/

namespace KeryxMiner.ShareAccounts

open MinerJobs StratumMessages StratumClient StratumShares TransitionRuns

/-- The `serial`-th share that was recorded, and the connection it was sent over. -/
structure Share where
  serial : Nat
  connection : Nat
  deriving DecidableEq

structure Ledger where
  client : Client
  submitted : Nat
  holder : UInt32 → Option Share

def Ledger.opened (client : Client) : Ledger := ⟨client, 0, fun _ => none⟩

/-- The id under which a step records a new share. -/
def recorded (client : Client) : Event → Option UInt32
  | .submit (.partialBlock _) false _ => some client.lastStratumId
  | _ => none

def Ledger.follow (event : Event) (after : Client) (ledger : Ledger) : Ledger where
  client := after
  submitted := ledger.submitted + (recorded ledger.client event).toList.length
  holder id :=
    if recorded ledger.client event = some id then
      some ⟨ledger.submitted, ledger.client.connection⟩
    else if id ∈ after.pending then ledger.holder id
    else none

def ledgerStep (crates : ShareCrates) (options : ClientOptions) (ledger : Ledger)
    (event : Event) : Option Ledger :=
  (clientStep crates options ledger.client event).map fun after => ledger.follow event after

/-! The accounts. -/

def pendingCount (stats : ShareStats) : Nat := stats.sharesPending.keys.length

def settledWords (stats : ShareStats) : UInt64 :=
  stats.accepted + stats.stale + stats.lowDiff + stats.duplicate

def settledCount (stats : ShareStats) : Nat :=
  stats.accepted.toNat + stats.stale.toNat + stats.lowDiff.toNat + stats.duplicate.toNat

/-- The counters are 64 bits wide, so past 2^64 shares the sum is one of words. -/
structure Balanced (submitted : Nat) (stats : ShareStats) : Prop where
  words : UInt64.ofNat submitted = settledWords stats + UInt64.ofNat (pendingCount stats)
  exact : submitted < 2 ^ 64 → submitted = settledCount stats + pendingCount stats

/-- A share leaves the table by a reply to its id on its own connection, and only
a share that is recorded enters it. -/
structure Attributed (before : Ledger) (event : Event) (after : Ledger) : Prop where
  leaves : ∀ id share, before.holder id = some share → after.holder id ≠ some share →
    share.connection = before.client.connection ∧
      ∃ slm line contended, event = .message slm line contended ∧ looksUp line = some id
  enters : ∀ id share, after.holder id = some share → before.holder id ≠ some share →
    share.serial = before.submitted ∧ recorded before.client event = some id

/-- The conservation law of a step. -/
structure Conserved (before : Ledger) (event : Event) (after : Ledger) : Prop where
  balanced : Balanced after.submitted after.client.stats
  attributed : Attributed before event after
  earlier : ∀ id share, after.holder id = some share → share.serial < after.submitted

/-- A share is recorded under an id that is not pending; a reply that looks up a
pending share is on its connection and reports no missing authorization or
subscription. -/
def Settles (before : Ledger) : Event → Prop
  | .submit (.partialBlock _) false _ => before.client.lastStratumId ∉ before.client.pending
  | .message _ line false => ∀ id share, looksUp line = some id →
      before.holder id = some share → share.connection = before.client.connection ∧
        ∀ error, line.error = some error →
          error.code ≠ .unauthorized ∧ error.code ≠ .notSubscribed
  | _ => True

structure Sound (ledger : Ledger) : Prop where
  balanced : Balanced ledger.submitted ledger.client.stats
  holds : ∀ id, id ∈ ledger.client.pending ↔ ∃ share, ledger.holder id = some share
  earlier : ∀ id share, ledger.holder id = some share → share.serial < ledger.submitted

theorem opened_sound (client : Client) (unused : client.stats = freshStats) :
    Sound (Ledger.opened client) where
  balanced := by
    constructor <;> simp [Ledger.opened, unused, freshStats, settledWords, settledCount,
      pendingCount]
  holds := by simp [Ledger.opened, Client.pending, unused, freshStats]
  earlier := by simp [Ledger.opened]

/-! The sum under the changes of the table. -/

/-- One counter is one higher. -/
structure Counts (before after : ShareStats) : Prop where
  words : settledWords after = settledWords before + 1
  exact : settledCount before + 1 < 2 ^ 64 → settledCount after = settledCount before + 1
  pending : after.sharesPending = before.sharesPending

theorem toNat_succ {word : UInt64} (small : word.toNat + 1 < 2 ^ 64) :
    (word + 1).toNat = word.toNat + 1 := by
  rw [UInt64.toNat_add, UInt64.toNat_one, Nat.mod_eq_of_lt small]

theorem accepted_counts (stats : ShareStats) :
    Counts stats { stats with accepted := stats.accepted + 1 } where
  words := by simp only [settledWords]; ac_rfl
  exact small := by
    simp only [settledCount] at small ⊢
    rw [toNat_succ (by omega)]
    omega
  pending := rfl

/-- The codes that say something about the share are counted. -/
theorem reject_counts (error : StratumError) (stats : ShareStats)
    (counted : error.code ≠ .unauthorized ∧ error.code ≠ .notSubscribed) :
    Counts stats (rejectShare error stats).1 := by
  unfold rejectShare
  cases code : error.code with
  | unauthorized => exact absurd code counted.1
  | notSubscribed => exact absurd code counted.2
  | unknown | lowDifficultyShare | jobNotFound | duplicateShare =>
      refine ⟨by simp only [settledWords]; ac_rfl, fun small => ?_, rfl⟩
      simp only [settledCount] at small ⊢
      rw [toNat_succ (by omega)]
      omega

theorem reject_passes_over {error : StratumError} (stats : ShareStats)
    (uncounted : ¬ (error.code ≠ .unauthorized ∧ error.code ≠ .notSubscribed)) :
    (rejectShare error stats).1 = stats := by
  unfold rejectShare
  cases code : error.code <;> simp [code] at uncounted ⊢

def without (id : UInt32) (stats : ShareStats) : ShareStats :=
  { stats with sharesPending := stats.sharesPending.erase id }

def withEntry (id : UInt32) (jobId : String) (stats : ShareStats) : ShareStats :=
  { stats with sharesPending := stats.sharesPending.insert id jobId }

theorem without_count {id : UInt32} {stats : ShareStats} (pending : id ∈ stats.sharesPending) :
    pendingCount stats = pendingCount (without id stats) + 1 := by
  have present := AList.mem_keys.mp pending
  have nonempty := List.length_pos_of_mem present
  simp only [pendingCount, without, AList.keys_erase, List.length_erase_of_mem present]
  omega

theorem with_entry_count {id : UInt32} {jobId : String} {stats : ShareStats}
    (unused : id ∉ stats.sharesPending) :
    pendingCount (withEntry id jobId stats) = pendingCount stats + 1 := by
  have absent : id ∉ stats.sharesPending.keys := fun present => unused (AList.mem_keys.mpr present)
  simp only [pendingCount, withEntry, AList.keys_insert, List.length_cons,
    List.erase_of_not_mem absent]

theorem with_entry_overwrites {id : UInt32} {jobId : String} {stats : ShareStats}
    (pending : id ∈ stats.sharesPending) :
    pendingCount (withEntry id jobId stats) = pendingCount stats := by
  have present := AList.mem_keys.mp pending
  have nonempty := List.length_pos_of_mem present
  simp only [pendingCount, withEntry, AList.keys_insert, List.length_cons,
    List.length_erase_of_mem present]
  omega

theorem counted_balanced {submitted : Nat} {id : UInt32} {before after : ShareStats}
    (balanced : Balanced submitted before) (pending : id ∈ before.sharesPending)
    (counts : Counts (without id before) after) : Balanced submitted after := by
  have one_less := without_count pending
  have same : pendingCount after = pendingCount (without id before) := by
    rw [pendingCount, counts.pending, pendingCount]
  constructor
  · have words := balanced.words
    rw [one_less, UInt64.ofNat_add] at words
    rw [counts.words, same, words]
    simp only [settledWords, without]
    ac_rfl
  · intro small
    have sum := balanced.exact small
    rw [one_less] at sum
    have room : settledCount (without id before) + 1 < 2 ^ 64 := by
      simp only [settledCount, without] at sum ⊢
      omega
    rw [counts.exact room, same]
    simp only [settledCount, without] at sum ⊢
    omega

theorem entry_balanced {submitted : Nat} {id : UInt32} {jobId : String} {before : ShareStats}
    (balanced : Balanced submitted before) (unused : id ∉ before.sharesPending) :
    Balanced (submitted + 1) (withEntry id jobId before) := by
  constructor
  · rw [with_entry_count unused, UInt64.ofNat_add, UInt64.ofNat_add, balanced.words]
    simp only [settledWords, withEntry]
    ac_rfl
  · intro small
    have sum := balanced.exact (by omega)
    rw [with_entry_count unused]
    simp only [settledCount, withEntry] at sum ⊢
    omega

theorem word_add_one_ne (word : UInt64) : word + 1 ≠ word := by
  intro same
  have overflow := congrArg UInt64.toNat same
  rw [UInt64.toNat_add, UInt64.toNat_one] at overflow
  have bound := word.toNat_lt
  omega

/-- A share recorded over a pending one leaves the sum one short. -/
theorem overwritten_unbalanced {submitted : Nat} {id : UInt32} {jobId : String}
    {before : ShareStats} (balanced : Balanced submitted before)
    (pending : id ∈ before.sharesPending) :
    ¬ Balanced (submitted + 1) (withEntry id jobId before) := by
  intro after
  have words := after.words
  rw [with_entry_overwrites pending, UInt64.ofNat_add, balanced.words] at words
  exact word_add_one_ne _ words

/-- So does a share that is removed without being counted. -/
theorem uncounted_unbalanced {submitted : Nat} {id : UInt32} {before : ShareStats}
    (balanced : Balanced submitted before) (pending : id ∈ before.sharesPending) :
    ¬ Balanced submitted (without id before) := by
  intro after
  have words := balanced.words
  rw [without_count pending, UInt64.ofNat_add, after.words, ← UInt64.add_assoc] at words
  exact word_add_one_ne _ words.symm

/-! One step of the ledger. -/

section Steps
variable {ledger : Ledger} {event : Event} {after : Client}

theorem follow_holder (id : UInt32) :
    (ledger.follow event after).holder id =
      if recorded ledger.client event = some id then
        some ⟨ledger.submitted, ledger.client.connection⟩
      else if id ∈ after.pending then ledger.holder id
      else none := rfl

theorem follow_submitted (quiet : recorded ledger.client event = none) :
    (ledger.follow event after).submitted = ledger.submitted := by
  simp [Ledger.follow, quiet]

/-- Only the record of a step brings a share into the ledger. -/
theorem follow_enters (id : UInt32) (share : Share)
    (held : (ledger.follow event after).holder id = some share) :
    ledger.holder id = some share ∨
      share.serial = ledger.submitted ∧ recorded ledger.client event = some id := by
  rw [follow_holder] at held
  split at held
  · rename_i records
    obtain rfl := Option.some.inj held
    exact Or.inr ⟨rfl, records⟩
  · split at held
    · exact Or.inl held
    · contradiction

theorem follow_earlier (sound : Sound ledger) (id : UInt32) (share : Share)
    (held : (ledger.follow event after).holder id = some share) :
    share.serial < (ledger.follow event after).submitted := by
  rcases follow_enters id share held with before | ⟨serial, records⟩
  · have earlier := sound.earlier id share before
    simp only [Ledger.follow]
    omega
  · simp [Ledger.follow, serial, records]

theorem follow_holds (sound : Sound ledger)
    (kept : ∀ id, id ∈ after.pending → recorded ledger.client event = some id ∨
      id ∈ ledger.client.pending)
    (entered : ∀ id, recorded ledger.client event = some id → id ∈ after.pending) (id : UInt32) :
    id ∈ (ledger.follow event after).client.pending ↔
      ∃ share, (ledger.follow event after).holder id = some share := by
  rw [follow_holder]
  split
  · rename_i records
    exact ⟨fun _ => ⟨_, rfl⟩, fun _ => entered id records⟩
  · rename_i quiet
    split
    · rename_i pending
      have before := (kept id pending).resolve_left quiet
      exact ⟨fun _ => (sound.holds id).mp before, fun _ => pending⟩
    · rename_i settled
      exact ⟨fun pending => absurd pending settled, fun ⟨_, held⟩ => by contradiction⟩

/-- Conserved steps keep the ledger sound when the table only gains what is recorded. -/
theorem conserved_sound (sound : Sound ledger)
    (kept : ∀ id, id ∈ after.pending → recorded ledger.client event = some id ∨
      id ∈ ledger.client.pending)
    (entered : ∀ id, recorded ledger.client event = some id → id ∈ after.pending)
    (conserved : Conserved ledger event (ledger.follow event after)) :
    Sound (ledger.follow event after) where
  balanced := conserved.balanced
  holds := follow_holds sound kept entered
  earlier := conserved.earlier

theorem conserved_iff (sound : Sound ledger) :
    Conserved ledger event (ledger.follow event after) ↔
      Balanced (ledger.follow event after).submitted after.stats ∧
        ∀ id share, ledger.holder id = some share →
          (ledger.follow event after).holder id ≠ some share →
          share.connection = ledger.client.connection ∧
            ∃ slm line contended, event = .message slm line contended ∧
              looksUp line = some id := by
  constructor
  · exact fun conserved => ⟨conserved.balanced, conserved.attributed.leaves⟩
  · rintro ⟨balanced, leaves⟩
    refine ⟨balanced, ⟨leaves, fun id share held new => ?_⟩, follow_earlier sound⟩
    exact (follow_enters id share held).resolve_left new

/-- A share whose id is still pending and is not recorded anew stays. -/
theorem follow_stays {id : UInt32} {share : Share} (held : ledger.holder id = some share)
    (other : recorded ledger.client event ≠ some id) (pending : id ∈ after.pending) :
    (ledger.follow event after).holder id = some share := by
  rw [follow_holder, if_neg other, if_pos pending, held]

theorem quiet_conserved (sound : Sound ledger) (quiet : recorded ledger.client event = none)
    (same : after.stats = ledger.client.stats) :
    Conserved ledger event (ledger.follow event after) := by
  rw [conserved_iff sound, follow_submitted quiet, same]
  refine ⟨sound.balanced, fun id share held left => ?_⟩
  have pending : id ∈ after.pending := by
    rw [Client.pending, same]
    exact (sound.holds id).mpr ⟨share, held⟩
  exact absurd (follow_stays held (by simp [quiet]) pending) left

/-- A share that is recorded is accounted for when its id is not pending. -/
theorem record_conserved_iff (sound : Sound ledger) {jobId : String}
    (records : recorded ledger.client event = some ledger.client.lastStratumId)
    (stats : after.stats = withEntry ledger.client.lastStratumId jobId ledger.client.stats) :
    Conserved ledger event (ledger.follow event after) ↔
      ledger.client.lastStratumId ∉ ledger.client.pending := by
  have submitted : (ledger.follow event after).submitted = ledger.submitted + 1 := by
    simp [Ledger.follow, records]
  rw [conserved_iff sound, submitted, stats]
  constructor
  · intro conserved pending
    exact overwritten_unbalanced sound.balanced pending conserved.1
  · intro unused
    refine ⟨entry_balanced sound.balanced unused, fun id share held left => ?_⟩
    have present := (sound.holds id).mpr ⟨share, held⟩
    have other : ledger.client.lastStratumId ≠ id := fun same => unused (same ▸ present)
    have pending : id ∈ after.pending := by
      rw [Client.pending, stats]
      exact (AList.mem_insert _).mpr (Or.inr present)
    exact absurd (follow_stays held (by simp [records, other]) pending) left

/-- A share that is counted as it leaves is accounted for on its own connection. -/
theorem counted_conserved_iff (sound : Sound ledger) {slm : AiPayloads.Slm} {line : StratumLine}
    {id : UInt32} {share : Share} (looks : looksUp line = some id)
    (held : ledger.holder id = some share)
    (counts : Counts (without id ledger.client.stats) after.stats) :
    Conserved ledger (.message slm line false) (ledger.follow (.message slm line false) after) ↔
      share.connection = ledger.client.connection := by
  have pending := (sound.holds id).mpr ⟨share, held⟩
  have erased : after.pending = ledger.client.pending.erase id := counts.pending
  rw [conserved_iff sound, follow_submitted rfl]
  constructor
  · intro conserved
    refine (conserved.2 id share held ?_).1
    rw [follow_holder, if_neg (by simp [recorded]), if_neg (by simp [erased])]
    simp
  · intro here
    refine ⟨counted_balanced sound.balanced pending counts, fun other left leftHeld gone => ?_⟩
    by_cases same : other = id
    · subst same
      obtain rfl := Option.some.inj (held.symm.trans leftHeld)
      exact ⟨here, slm, line, false, rfl, looks⟩
    · have stays : other ∈ after.pending := by
        rw [erased]
        exact AList.mem_erase.mpr ⟨same, (sound.holds other).mpr ⟨left, leftHeld⟩⟩
      exact absurd (follow_stays leftHeld (by simp [recorded]) stays) gone

end Steps

/-! What the steps of the client do to the table. -/

/-- A line that is no reply to a pending share. -/
def NamesNoShare (before : Client) (event : Event) : Prop :=
  ∀ slm line id, event = .message slm line false → looksUp line = some id → id ∉ before.pending

def Counted (line : StratumLine) : Prop :=
  ∀ error, line.error = some error → error.code ≠ .unauthorized ∧ error.code ≠ .notSubscribed

inductive Move (before : Client) : Event → Client → Prop
  | quiet (event : Event) (after : Client) (records : recorded before event = none)
      (names : NamesNoShare before event) (same : after.stats = before.stats) :
      Move before event after
  | entered (event : Event) (after : Client) (jobId : String)
      (records : recorded before event = some before.lastStratumId)
      (stats : after.stats = withEntry before.lastStratumId jobId before.stats) :
      Move before event after
  | counted (slm : AiPayloads.Slm) (line : StratumLine) (after : Client) (id : UInt32)
      (looks : looksUp line = some id) (pending : id ∈ before.pending) (counted : Counted line)
      (counts : Counts (without id before.stats) after.stats) :
      Move before (.message slm line false) after
  | dropped (slm : AiPayloads.Slm) (line : StratumLine) (after : Client) (id : UInt32)
      (looks : looksUp line = some id) (pending : id ∈ before.pending)
      (uncounted : ¬ Counted line) (stats : after.stats = without id before.stats) :
      Move before (.message slm line false) after

section Moves
variable (crates : ShareCrates) (options : ClientOptions)

theorem not_pending_move (slm : AiPayloads.Slm) {line : StratumLine} {id : UInt32}
    {before after : Client} (looks : looksUp line = some id)
    (absent : before.session.handler.sharesStats.sharesPending.lookup id = none)
    (same : after.stats = before.stats) : Move before (.message slm line false) after := by
  refine .quiet _ _ rfl ?_ same
  rintro _ _ other ⟨⟩ otherLooks
  obtain rfl := Option.some.inj (looks.symm.trans otherLooks)
  exact AList.lookup_eq_none.mp absent

theorem found_pending {before : Client} {id : UInt32} {jobId : String}
    (found : before.session.handler.sharesStats.sharesPending.lookup id = some jobId) :
    id ∈ before.pending :=
  AList.lookup_isSome.mp (by
    rw [Client.pending, Client.stats, found]
    rfl)

theorem accept_share_move (slm : AiPayloads.Slm) {line : StratumLine} {id : UInt32}
    (before : Client) (noError : line.error = none) (looks : looksUp line = some id) :
    Move before (.message slm line false) (before.receive crates slm line false) := by
  have accepts := handle_message_accepts crates.pool slm noError looks before.session
  have received : (before.receive crates slm line false).stats =
      (acceptShare id before.session.handler).sharesStats := by
    simp [Client.receive, Client.stats, accepts]
  unfold acceptShare at received
  cases found : before.session.handler.sharesStats.sharesPending.lookup id with
  | none =>
      rw [found] at received
      exact not_pending_move slm looks found received
  | some jobId =>
      rw [found] at received
      have pending := found_pending found
      refine .counted slm line _ id looks pending ?_ ?_
      · intro error failed
        rw [noError] at failed
        contradiction
      · rw [received]
        exact accepted_counts (without id before.stats)

theorem handle_error_move (slm : AiPayloads.Slm) {line : StratumLine} {id : UInt32}
    {error : StratumError} (before : Client) (failed : line.error = some error)
    (looks : looksUp line = some id) :
    Move before (.message slm line false) (before.receive crates slm line false) := by
  have rejects := handle_message_rejects crates.pool slm failed looks before.session
  have received : (before.receive crates slm line false).stats =
      (handleError id error before.session.handler).1.sharesStats := by
    simp [Client.receive, Client.stats, rejects, Session.onHandler]
  unfold handleError at received
  cases found : before.session.handler.sharesStats.sharesPending.lookup id with
  | none =>
      rw [found] at received
      exact not_pending_move slm looks found received
  | some jobId =>
      rw [found] at received
      have pending := found_pending found
      have removed : (before.receive crates slm line false).stats =
          (rejectShare error (without id before.stats)).1 := received
      by_cases counted : error.code ≠ .unauthorized ∧ error.code ≠ .notSubscribed
      · refine .counted slm line _ id looks pending ?_ ?_
        · intro other otherFailed
          obtain rfl := Option.some.inj (failed.symm.trans otherFailed)
          exact counted
        · rw [removed]
          exact reject_counts error _ counted
      · refine .dropped slm line _ id looks pending (fun all => counted (all error failed)) ?_
        rw [removed, reject_passes_over _ counted]

theorem receive_move (slm : AiPayloads.Slm) (line : StratumLine) (contended : Bool)
    (before : Client) :
    Move before (.message slm line contended) (before.receive crates slm line contended) := by
  cases looks : looksUp line with
  | none =>
      refine .quiet _ _ rfl ?_ ?_
      · rintro _ _ id ⟨⟩ otherLooks
        rw [looks] at otherLooks
        contradiction
      · simpa [Client.receive, looks, Client.stats] using
          handle_message_stats crates.pool slm looks before.session
  | some id =>
      cases contended with
      | true =>
          refine .quiet _ _ rfl ?_ ?_
          · rintro _ _ _ ⟨⟩
          · simp [Client.receive, looks, Client.stats]
      | false =>
          cases failed : line.error with
          | none => exact accept_share_move crates slm before failed looks
          | some error => exact handle_error_move crates slm before failed looks

theorem submit_move (seed : BlockSeed) (contended delivered : Bool) (before : Client) :
    Move before (.submit seed contended delivered)
      (before.submit crates options seed contended delivered) := by
  have other : NamesNoShare before (.submit seed contended delivered) := by
    rintro _ _ _ ⟨⟩
  cases seed with
  | fullBlock block => exact .quiet _ _ rfl other rfl
  | partialBlock share =>
      cases contended with
      | true => exact .quiet _ _ rfl other rfl
      | false =>
          refine .entered _ _ share.id rfl ?_
          cases delivered <;> rfl

theorem task_step_stats {before after : Session} {step : TaskStep}
    (stepped : taskStep before step = some after) :
    after.handler.sharesStats = before.handler.sharesStats := by
  cases step with
  | uploaded place cid =>
      simp only [taskStep] at stepped
      split at stepped
      · obtain rfl := Option.some.inj stepped
        rfl
      · contradiction
  | ended place text =>
      simp only [taskStep] at stepped
      split at stepped
      · obtain rfl := Option.some.inj stepped
        rfl
      · obtain rfl := Option.some.inj stepped
        rfl
      · contradiction

theorem client_step_move {before after : Client} {event : Event}
    (stepped : clientStep crates options before event = some after) : Move before event after := by
  cases event with
  | connect slm accepted workers =>
      simp only [clientStep] at stepped
      split at stepped
      · obtain rfl := Option.some.inj stepped
        exact .quiet _ _ rfl (by rintro _ _ _ ⟨⟩) rfl
      · contradiction
  | submit seed contended delivered =>
      simp only [clientStep] at stepped
      split at stepped
      · obtain rfl := Option.some.inj stepped
        exact submit_move crates options seed contended delivered before
      · contradiction
  | message slm line contended =>
      simp only [clientStep] at stepped
      split at stepped
      · obtain rfl := Option.some.inj stepped
        exact receive_move crates slm line contended before
      · contradiction
  | task step =>
      simp only [clientStep] at stepped
      split at stepped
      · contradiction
      · obtain ⟨session, moved, built⟩ := Option.map_eq_some_iff.mp stepped
        subst built
        exact .quiet _ _ rfl (by rintro _ _ _ ⟨⟩) (task_step_stats moved)
  | returned =>
      simp only [clientStep] at stepped
      split at stepped
      · obtain rfl := Option.some.inj stepped
        exact .quiet _ _ rfl (by rintro _ _ _ ⟨⟩) rfl
      · contradiction

end Moves

theorem quiet_settles {ledger : Ledger} {event : Event} (sound : Sound ledger)
    (records : recorded ledger.client event = none) (names : NamesNoShare ledger.client event) :
    Settles ledger event := by
  unfold Settles
  split
  · simp [recorded] at records
  · intro id share looks held
    exact absurd ((sound.holds id).mpr ⟨share, held⟩) (names _ _ id rfl looks)
  · trivial

/-- A step of the client conserves the shares exactly when it settles them. -/
theorem move_settles_iff {ledger : Ledger} {event : Event} {after : Client} (sound : Sound ledger)
    (move : Move ledger.client event after) :
    Settles ledger event ↔ Conserved ledger event (ledger.follow event after) := by
  cases move with
  | quiet _ _ records names same =>
      -- a step that touches no share keeps both sides
      exact iff_of_true (quiet_settles sound records names) (quiet_conserved sound records same)
  | entered _ _ jobId records stats =>
      rw [record_conserved_iff sound records stats]
      unfold Settles
      split
      · exact Iff.rfl
      · simp [recorded] at records
      · rename_i other _
        unfold recorded at records
        split at records
        · exact absurd rfl (other _ _)
        · contradiction
  | counted slm line _ id looks pending counted counts =>
      obtain ⟨share, held⟩ := (sound.holds id).mp pending
      rw [counted_conserved_iff sound looks held counts]
      constructor
      · exact fun settles => (settles id share looks held).1
      · intro here other left otherLooks leftHeld
        obtain rfl := Option.some.inj (looks.symm.trans otherLooks)
        obtain rfl := Option.some.inj (held.symm.trans leftHeld)
        exact ⟨here, counted⟩
  | dropped slm line _ id looks pending uncounted stats =>
      obtain ⟨share, held⟩ := (sound.holds id).mp pending
      -- the share is gone and no counter moved, so the sum is one short
      refine iff_of_false (fun settles => uncounted (settles id share looks held).2) ?_
      intro conserved
      have balanced := conserved.balanced
      rw [follow_submitted rfl] at balanced
      exact uncounted_unbalanced sound.balanced pending (stats ▸ balanced)

theorem move_sound {ledger : Ledger} {event : Event} {after : Client} (sound : Sound ledger)
    (move : Move ledger.client event after)
    (conserved : Conserved ledger event (ledger.follow event after)) :
    Sound (ledger.follow event after) := by
  cases move with
  | quiet _ _ records names same =>
      refine conserved_sound sound (fun id pending => Or.inr ?_) (fun id enters => ?_) conserved
      · rwa [Client.pending, same] at pending
      · rw [records] at enters
        contradiction
  | entered _ _ jobId records stats =>
      have table : after.pending =
          ledger.client.pending.insert ledger.client.lastStratumId jobId := by
        rw [Client.pending, stats]
        rfl
      refine conserved_sound sound (fun id pending => ?_) (fun id enters => ?_) conserved
      · rw [table, AList.mem_insert] at pending
        exact pending.imp (fun same => by rw [records, same]) fun present => present
      · obtain rfl := Option.some.inj (records.symm.trans enters)
        rw [table]
        exact (AList.mem_insert _).mpr (Or.inl rfl)
  | counted slm line _ id looks pending counted counts =>
      refine conserved_sound sound (fun other left => Or.inr ?_) (fun _ enters => ?_) conserved
      · rw [Client.pending, counts.pending] at left
        exact (AList.mem_erase.mp left).2
      · contradiction
  | dropped slm line _ id looks pending uncounted stats =>
      refine conserved_sound sound (fun other left => Or.inr ?_) (fun _ enters => ?_) conserved
      · rw [Client.pending, stats] at left
        exact (AList.mem_erase.mp left).2
      · contradiction

/-- Over every run from a fresh start: the shares are accounted for in every step
exactly when every step settles them. -/
theorem shares_conserved_iff (crates : ShareCrates) (options : ClientOptions)
    (slm : AiPayloads.Slm) (accepted workers : Nat) (blockTemplateCtr : UInt16)
    (events : List Event) :
    EveryStep (ledgerStep crates options) (fun before event _ => Settles before event)
        (Ledger.opened (Client.opened crates options slm accepted workers 0 blockTemplateCtr
          freshStats)) events ↔
      EveryStep (ledgerStep crates options) Conserved
        (Ledger.opened (Client.opened crates options slm accepted workers 0 blockTemplateCtr
          freshStats)) events := by
  apply every_step_iff Sound
  · intro before event after sound stepped settles
    obtain ⟨client, moved, rfl⟩ := Option.map_eq_some_iff.mp stepped
    have move := client_step_move crates options moved
    exact move_sound sound move ((move_settles_iff sound move).mp settles)
  · intro before event after sound stepped
    obtain ⟨client, moved, rfl⟩ := Option.map_eq_some_iff.mp stepped
    exact move_settles_iff sound (client_step_move crates options moved)
  · exact opened_sound _ rfl

/-! A share that an error removes without counting it, and one that the first share
after a reconnection overwrites. -/

def found : BlockSeed := .partialBlock {
  id := "7"
  headerHash := Vector.replicate 4 0
  timestamp := 0
  daaScore := 0
  nonce := 1
  target := Vector.replicate 4 0
  nonceMask := 0
  nonceFixed := 0
  hash := none }

theorem shares_lost :
    ¬ EveryStep (ledgerStep poolCrates poolOptions) Conserved (Ledger.opened firstClient)
        [.submit found false true, .message noModels (errorReply 2 .unauthorized) false] ∧
      ¬ EveryStep (ledgerStep poolCrates poolOptions) Conserved (Ledger.opened firstClient)
        [.submit found false true, .returned, .connect noModels 2 1,
          .submit found false true] := by
  constructor
  · intro conserved
    obtain ⟨-, refused⟩ := conserved _ rfl
    obtain ⟨lost, -⟩ := refused _ rfl
    exact absurd lost.balanced.words (by decide)
  · intro conserved
    obtain ⟨-, closed⟩ := conserved _ rfl
    obtain ⟨-, opened⟩ := closed _ rfl
    obtain ⟨-, recorded⟩ := opened _ rfl
    obtain ⟨lost, -⟩ := recorded _ rfl
    exact absurd lost.balanced.words (by decide)

end KeryxMiner.ShareAccounts
