import CopyMint.Domain.Enums
import CopyMint.Ethereum.WireFormat
import CopyMint.Library.Loops
import Mathlib.Data.Nat.Log

/-!
# Discovery of the deployment block

The deployment block of a contract is searched by bisection: as long as the range of
blocks has more than one, the provider is asked for the code at its middle. The search
ends at a block with code that has none right before it. Which of these blocks it
finds depends on the blocks that it looks at.
-/

namespace CopyMint

open Hexadecimal Loops

/-- What the deployment search returns. -/
structure CollectionProbe where
  normalizedAddress : Text
  checksumAddress : Text
  deploymentBlockNumber : ℕ
  deploymentBlockHash : Text
  deploymentConfidence : DeploymentConfidence
  deploymentConfidenceValue : ℕ

/-- What a block is asked for by. -/
inductive BlockTag where
  | number (number : ℕ)
  | finalized

/-- The provider of a discovery. -/
structure DiscoveryPorts (World : Type) where
  chainId : World → Except Raised ℕ × World
  block : BlockTag → World → Except Raised BlockReference × World
  code : Text → ℕ → World → Except Raised Bytes × World

/-- Why a probe has no result. -/
inductive DiscoveryFailure where
  | invalidCollection (message : String)
  | raised (error : Raised)

/-- The bounds of the search and what the provider has been asked. -/
structure SearchState (World : Type) where
  low : ℕ
  high : ℕ
  world : World

/-- The discovery of one chain. -/
structure EthereumCollectionDiscovery where
  chainId : ℕ := 1

variable {World : Type}

/-- Go on with the answer of a call, unless it raises. -/
def andThen {Answer Result : Type} (answered : Except Raised Answer × World)
    (next : Answer → World → Option (Except DiscoveryFailure Result × World)) :
    Option (Except DiscoveryFailure Result × World) :=
  match answered with
  | (.error raised, world) => some (.error (.raised raised), world)
  | (.ok answer, world) => next answer world

namespace EthereumCollectionDiscovery

variable (primitives : Primitives) (discovery : EthereumCollectionDiscovery)
  (ports : DiscoveryPorts World)

/-- `verify_chain`. -/
def verifyChain (world : World) : Except Raised Unit × World :=
  match ports.chainId world with
  | (.error raised, world) => (.error raised, world)
  | (.ok actual, world) =>
      if actual ≠ discovery.chainId then
        (.error (.runtimeError
            s!"Ethereum provider chain mismatch: expected {discovery.chainId}, received {actual}"),
          world)
      else (.ok (), world)

/-- A round of the bisection. -/
def searchRound (checksum : Text) (search : SearchState World) :
    Round (SearchState World) (Except Raised ℕ × World) :=
  if search.low < search.high then
    let middle := (search.low + search.high) / 2
    match ports.code checksum middle search.world with
    | (.error raised, world) => .exit (.error raised, world)
    | (.ok code, world) =>
        if code ≠ [] then .next ⟨search.low, middle, world⟩
        else .next ⟨middle + 1, search.high, world⟩
  else .exit (.ok search.low, search.world)

/-- `probe`, as far as it comes in a number of rounds of the bisection. -/
def probe (rounds : ℕ) (address : Text) (world : World) :
    Option (Except DiscoveryFailure CollectionProbe × World) :=
  if !primitives.isAddress address then
    some (.error (.invalidCollection "collection address is not a valid Ethereum address"), world)
  else
    andThen (primitives.toChecksumAddress address, world) fun checksum world =>
    andThen (discovery.verifyChain ports world) fun _ world =>
    andThen (ports.block .finalized world) fun finalized world =>
    andThen (ports.code checksum finalized.number world) fun code world =>
      if code = [] then
        some (.error (.invalidCollection
          "address has no contract code at the finalized boundary"), world)
      else
        match run (searchRound ports checksum) rounds ⟨0, finalized.number, world⟩ with
        | none => none
        | some searched =>
            andThen searched fun low world =>
            andThen (ports.block (.number low) world) fun deployment world =>
              some (.ok
                { normalizedAddress := lower checksum
                  checksumAddress := checksum
                  deploymentBlockNumber := deployment.number
                  deploymentBlockHash := deployment.blockHash
                  deploymentConfidence := .exact
                  deploymentConfidenceValue := 100 }, world)

end EthereumCollectionDiscovery

/-- The same provider with a record of the blocks whose code was asked for, the last one first. -/
def DiscoveryPorts.recorded (ports : DiscoveryPorts World) : DiscoveryPorts (World × List ℕ) where
  chainId world :=
    let answered := ports.chainId world.1
    (answered.1, answered.2, world.2)
  block tag world :=
    let answered := ports.block tag world.1
    (answered.1, answered.2, world.2)
  code address number world :=
    let answered := ports.code address number world.1
    (answered.1, answered.2, number :: world.2)

/-- A provider that answers from a chain with a history of an address's code. -/
structure DiscoveryPorts.Answers (ports : DiscoveryPorts World) (checksum : Text)
    (chainId finalized : ℕ) (history : ℕ → Bytes) : Prop where
  chainId : ∀ world, (ports.chainId world).1 = .ok chainId
  finalized : ∀ world, ∃ blockHash, (ports.block .finalized world).1 = .ok ⟨finalized, blockHash⟩
  block : ∀ number world, ∃ blockHash,
    (ports.block (.number number) world).1 = .ok ⟨number, blockHash⟩
  code : ∀ number world, (ports.code checksum number world).1 = .ok (history number)

/-- A provider that answers from a chain whose finalized head may have moved by the next call. -/
structure DiscoveryPorts.AnswersAt (ports : DiscoveryPorts World) (checksum : Text)
    (chainId : ℕ) (head : World → ℕ) (history : ℕ → Bytes) : Prop where
  chainId : ∀ world, (ports.chainId world).1 = .ok chainId
  finalized : ∀ world, ∃ blockHash,
    (ports.block .finalized world).1 = .ok ⟨head world, blockHash⟩
  block : ∀ number world, ∃ blockHash,
    (ports.block (.number number) world).1 = .ok ⟨number, blockHash⟩
  code : ∀ number world, (ports.code checksum number world).1 = .ok (history number)

theorem DiscoveryPorts.Answers.answersAt {ports : DiscoveryPorts World} {checksum : Text}
    {chainId finalized : ℕ} {history : ℕ → Bytes}
    (answers : ports.Answers checksum chainId finalized history) :
    ports.AnswersAt checksum chainId (fun _ => finalized) history :=
  ⟨answers.chainId, answers.finalized, answers.block, answers.code⟩

namespace EthereumCollectionDiscovery

variable {primitives : Primitives} {discovery : EthereumCollectionDiscovery}
  {ports : DiscoveryPorts World} {checksum : Text} {chainId finalized : ℕ} {history : ℕ → Bytes}
  {head : World → ℕ}

section Search

/-- A bisection of the range from `low` to `high` looks at a block on its way to a target. -/
inductive LooksAt (target : ℕ) : ℕ → ℕ → ℕ → Prop
  | here {low high : ℕ} (open_ : low < high) : LooksAt target low high ((low + high) / 2)
  | lower {low high block : ℕ} (open_ : low < high) (left : target ≤ (low + high) / 2)
      (later : LooksAt target low ((low + high) / 2) block) : LooksAt target low high block
  | upper {low high block : ℕ} (open_ : low < high) (right : (low + high) / 2 < target)
      (later : LooksAt target ((low + high) / 2 + 1) high block) : LooksAt target low high block

/-- A round of a search, by what it finds at the middle. -/
inductive SearchPlayed (history : ℕ → Bytes) (low high : ℕ) (asked : List ℕ) :
    Round (SearchState (World × List ℕ)) (Except Raised ℕ × World × List ℕ) → Prop
  | present {world : World} (open_ : low < high) (code : history ((low + high) / 2) ≠ []) :
      SearchPlayed history low high asked
        (.next ⟨low, (low + high) / 2, world, (low + high) / 2 :: asked⟩)
  | absent {world : World} (open_ : low < high) (code : history ((low + high) / 2) = []) :
      SearchPlayed history low high asked
        (.next ⟨(low + high) / 2 + 1, high, world, (low + high) / 2 :: asked⟩)
  | found {world : World} (closed : ¬low < high) :
      SearchPlayed history low high asked (.exit (.ok low, world, asked))

theorem searchPlayed (answers : ports.AnswersAt checksum chainId head history)
    (search : SearchState (World × List ℕ)) :
    SearchPlayed history search.low search.high search.world.2
      (searchRound ports.recorded checksum search) := by
  rcases search with ⟨low, high, world, asked⟩
  simp only [searchRound, DiscoveryPorts.recorded]
  split_ifs with open_
  · rw [answers.code]
    dsimp only
    split_ifs with code
    · exact .present open_ code
    · exact .absent open_ (not_not.mp code)
  · exact .found open_

/-- What holds between two rounds of a search up to a block. -/
structure Searches (history : ℕ → Bytes) (finalized low high : ℕ) (asked : List ℕ) : Prop where
  low_le : low ≤ high
  high_le : high ≤ finalized
  present : history high ≠ []
  absent : low ≠ 0 → history (low - 1) = []
  queries : asked.length + Nat.clog 2 (high - low + 1) ≤ 1 + Nat.clog 2 (finalized + 1)
  /-- On the way to a block of the range, code was found exactly where the search went down. -/
  seen : ∀ target, low ≤ target → target ≤ high → ∀ block, LooksAt target 0 finalized block →
    LooksAt target low high block ∨ (history block ≠ [] ↔ target ≤ block)

variable {low high : ℕ} {asked : List ℕ}

/-- Half of a range takes one query less. -/
theorem clog_half {size half : ℕ} (large : 1 ≤ size) (halved : half ≤ size / 2) :
    Nat.clog 2 (half + 1) < Nat.clog 2 (size + 1) := by
  rw [Nat.clog_of_two_le (by decide) (show 2 ≤ size + 1 by omega), Nat.lt_succ_iff]
  exact Nat.clog_mono_right 2 (by omega)

theorem clog_lower (open_ : low < high) :
    Nat.clog 2 ((low + high) / 2 - low + 1) < Nat.clog 2 (high - low + 1) :=
  clog_half (by omega) (by omega)

theorem clog_upper (open_ : low < high) :
    Nat.clog 2 (high - ((low + high) / 2 + 1) + 1) < Nat.clog 2 (high - low + 1) :=
  clog_half (by omega) (by omega)

theorem Searches.goDown (holds : Searches history finalized low high asked) (open_ : low < high)
    (code : history ((low + high) / 2) ≠ []) :
    Searches history finalized low ((low + high) / 2) ((low + high) / 2 :: asked) := by
  have fewer := clog_lower open_
  have queries := holds.queries
  have high_le := holds.high_le
  refine ⟨by omega, by omega, code, holds.absent, ?_, ?_⟩
  · rw [List.length_cons]
    omega
  · intro target target_ge target_le block looks
    rcases holds.seen target target_ge (by omega) block looks with later | there
    · cases later with
      | here => exact .inr (iff_of_true code target_le)
      | lower _ _ later => exact .inl later
      | upper _ right => omega
    · exact .inr there

theorem Searches.goUp (holds : Searches history finalized low high asked) (open_ : low < high)
    (code : history ((low + high) / 2) = []) :
    Searches history finalized ((low + high) / 2 + 1) high ((low + high) / 2 :: asked) := by
  have fewer := clog_upper open_
  have queries := holds.queries
  refine ⟨by omega, holds.high_le, holds.present, fun _ => code, ?_, ?_⟩
  · rw [List.length_cons]
    omega
  · intro target target_ge target_le block looks
    rcases holds.seen target (by omega) target_le block looks with later | there
    · cases later with
      | here => exact .inr (iff_of_false (not_not.mpr code) (by omega))
      | lower _ left => omega
      | upper _ _ later => exact .inl later
    · exact .inr there

theorem Searches.next (answers : ports.AnswersAt checksum chainId head history)
    {search after : SearchState (World × List ℕ)}
    (holds : Searches history finalized search.low search.high search.world.2)
    (played : searchRound ports.recorded checksum search = .next after) :
    Searches history finalized after.low after.high after.world.2 ∧
      Nat.clog 2 (after.high - after.low + 1) < Nat.clog 2 (search.high - search.low + 1) := by
  have moved := searchPlayed answers search
  rw [played] at moved
  cases moved with
  | present open_ code => exact ⟨holds.goDown open_ code, clog_lower open_⟩
  | absent open_ code => exact ⟨holds.goUp open_ code, clog_upper open_⟩

/-- What a search returns: a block where code begins, and what was seen on the way to it. -/
structure Finds (history : ℕ → Bytes) (finalized found : ℕ) (asked : List ℕ) : Prop where
  le : found ≤ finalized
  present : history found ≠ []
  absent : found ≠ 0 → history (found - 1) = []
  queries : asked.length ≤ 1 + Nat.clog 2 (finalized + 1)
  seen : ∀ block, LooksAt found 0 finalized block → (history block ≠ [] ↔ found ≤ block)

theorem LooksAt.lt {target low high block : ℕ} (looks : LooksAt target low high block) :
    low < high := by
  cases looks with
  | here open_ | lower open_ | upper open_ => exact open_

theorem Searches.exit (answers : ports.AnswersAt checksum chainId head history)
    {search : SearchState (World × List ℕ)}
    (holds : Searches history finalized search.low search.high search.world.2)
    {result : Except Raised ℕ × World × List ℕ}
    (played : searchRound ports.recorded checksum search = .exit result) :
    ∃ found, result.1 = .ok found ∧ Finds history finalized found result.2.2 := by
  have moved := searchPlayed answers search
  rw [played] at moved
  cases moved with
  | found closed =>
      have closed_eq : search.low = search.high := by
        have low_le := holds.low_le
        omega
      refine ⟨search.low, rfl, ?_, ?_, holds.absent, ?_, ?_⟩
      · exact holds.low_le.trans holds.high_le
      · rw [closed_eq]
        exact holds.present
      · exact (Nat.le_add_right _ _).trans holds.queries
      · intro block looks
        rcases holds.seen search.low le_rfl holds.low_le block looks with later | there
        · exact absurd later.lt closed
        · exact there

theorem searches_initial {blocks : List ℕ} (deployed : history finalized ≠ [])
    (single : blocks.length = 1) : Searches history finalized 0 finalized blocks := by
  refine ⟨Nat.zero_le _, le_rfl, deployed, fun positive => absurd rfl positive, ?_, ?_⟩
  · rw [single, Nat.sub_zero]
  · exact fun _ _ _ _ looks => .inl looks

/-- A search ends at a block that the history determines. -/
theorem exists_search (answers : ports.AnswersAt checksum chainId head history)
    (deployed : history finalized ≠ []) (world : World) {blocks : List ℕ}
    (single : blocks.length = 1) :
    ∃ found finish asked, Finds history finalized found asked ∧
      ∀ rounds > Nat.clog 2 (finalized + 1),
        run (searchRound ports.recorded checksum) rounds ⟨0, finalized, world, blocks⟩ =
          some (.ok found, finish, asked) := by
  let start : SearchState (World × List ℕ) := ⟨0, finalized, world, blocks⟩
  have initially : Searches history finalized start.low start.high start.world.2 :=
    searches_initial deployed single
  rcases exists_run_eq_some
    (fun search => Searches history finalized search.low search.high search.world.2)
    (fun search => Nat.clog 2 (search.high - search.low + 1))
    (fun holds played => Searches.next answers holds played)
    initially (Nat.lt_succ_self _) with ⟨⟨result, finish, asked⟩, ran⟩
  rcases run_invariant
    (fun search => Searches history finalized search.low search.high search.world.2)
    (fun result => ∃ found, result.1 = .ok found ∧ Finds history finalized found result.2.2)
    (fun holds played => (Searches.next answers holds played).1)
    (fun holds played => Searches.exit answers holds played) ran initially with
    ⟨found, rfl, finds⟩
  exact ⟨found, finish, asked, finds, fun rounds many => run_mono ran many⟩

end Search

section Probe

theorem andThen_of_ok {Answer Result : Type} {answered : Except Raised Answer × World}
    {answer : Answer} (ok : answered.1 = .ok answer)
    (next : Answer → World → Option (Except DiscoveryFailure Result × World)) :
    andThen answered next = next answer answered.2 := by
  rcases answered with ⟨result, world⟩
  cases ok
  rfl

theorem verifyChain_recorded (answers : ports.AnswersAt checksum discovery.chainId head history)
    (world : World × List ℕ) :
    discovery.verifyChain ports.recorded world =
      (.ok (), (ports.chainId world.1).2, world.2) := by
  simp only [verifyChain, DiscoveryPorts.recorded, answers.chainId]
  simp

/-- A probe of a contract with code at the head that it reads returns what a search finds. -/
theorem exists_probe_at (answers : ports.AnswersAt checksum discovery.chainId head history)
    {address : Text} (valid : primitives.isAddress address = true)
    (normalized : primitives.toChecksumAddress address = .ok checksum) (world : World)
    (deployed : history (head (ports.chainId world).2) ≠ []) :
    ∃ found blockHash before finish asked,
      (∀ rounds > Nat.clog 2 (head (ports.chainId world).2 + 1),
        discovery.probe primitives ports.recorded rounds address (world, []) =
          some (.ok ⟨lower checksum, checksum, found, blockHash, .exact, 100⟩, finish, asked)) ∧
      Finds history (head (ports.chainId world).2) found asked ∧
      (ports.block (.number found) before).1 = .ok ⟨found, blockHash⟩ := by
  let first := (ports.chainId world).2
  let finalized := head first
  have verified : discovery.verifyChain ports.recorded (world, []) = (.ok (), first, []) :=
    verifyChain_recorded answers (world, [])
  rcases answers.finalized first with ⟨finalizedHash, finalized_eq⟩
  let second := (ports.block .finalized first).2
  let third := (ports.code checksum finalized second).2
  rcases exists_search answers deployed third (List.length_singleton : [finalized].length = 1) with
    ⟨found, fourth, asked, finds, searched⟩
  rcases answers.block found fourth with ⟨blockHash, deployment_eq⟩
  refine ⟨found, blockHash, fourth, (ports.block (.number found) fourth).2, asked,
    fun rounds many => ?_, finds, deployment_eq⟩
  have finalized_ok : (ports.recorded.block .finalized (first, [])).1 =
      .ok ⟨finalized, finalizedHash⟩ := finalized_eq
  have code_ok : (ports.recorded.code checksum finalized (second, [])).1 =
      .ok (history finalized) := answers.code finalized second
  have deployment_ok : (ports.recorded.block (.number found) (fourth, asked)).1 =
      .ok ⟨found, blockHash⟩ := deployment_eq
  rw [probe, if_neg (by simp [valid]), normalized, andThen_of_ok rfl, verified, andThen_of_ok rfl,
    andThen_of_ok finalized_ok]
  dsimp only
  rw [show (ports.recorded.block .finalized (first, [])).2 = (second, []) from rfl,
    andThen_of_ok code_ok, if_neg deployed]
  rw [show (ports.recorded.code checksum finalized (second, [])).2 = (third, [finalized]) from rfl,
    searched rounds many]
  dsimp only
  rw [andThen_of_ok rfl, andThen_of_ok deployment_ok]
  rfl

section Erasure

/-- An answer without the record. -/
def forgetQueries {Answer : Type} (answered : Answer × World × List ℕ) : Answer × World :=
  (answered.1, answered.2.1)

/-- A state of a search without the record. -/
def forgetSearch (search : SearchState (World × List ℕ)) : SearchState World :=
  ⟨search.low, search.high, search.world.1⟩

theorem andThen_forget {Answer Result : Type} (answered : Except Raised Answer × World × List ℕ)
    {next : Answer → World × List ℕ → Option (Except DiscoveryFailure Result × World × List ℕ)}
    {plain : Answer → World → Option (Except DiscoveryFailure Result × World)}
    (follows : ∀ answer world, plain answer world.1 = (next answer world).map forgetQueries) :
    andThen (forgetQueries answered) plain = (andThen answered next).map forgetQueries := by
  rcases answered with ⟨raised | answer, world⟩
  · rfl
  · exact follows answer world

theorem searchRound_forget (search : SearchState (World × List ℕ)) :
    searchRound ports checksum (forgetSearch search) =
      (searchRound ports.recorded checksum search).map forgetSearch forgetQueries := by
  rcases search with ⟨low, high, world, asked⟩
  have forgotten : forgetSearch ⟨low, high, world, asked⟩ = ⟨low, high, world⟩ := rfl
  rw [forgotten]
  simp only [searchRound, DiscoveryPorts.recorded]
  split_ifs
  · generalize ports.code checksum ((low + high) / 2) world = answered
    rcases answered with ⟨raised | code, later⟩
    · rfl
    · dsimp only
      split_ifs <;> rfl
  · rfl

theorem verifyChain_forget (world : World × List ℕ) :
    discovery.verifyChain ports world.1 =
      forgetQueries (discovery.verifyChain ports.recorded world) := by
  simp only [verifyChain, DiscoveryPorts.recorded]
  generalize ports.chainId world.1 = answered
  rcases answered with ⟨raised | actual, later⟩
  · rfl
  · dsimp only
    split_ifs <;> rfl

/-- Keeping a record of the queries changes nothing. -/
theorem probe_recorded (rounds : ℕ) (address : Text) (world : World) (asked : List ℕ) :
    discovery.probe primitives ports rounds address world =
      (discovery.probe primitives ports.recorded rounds address (world, asked)).map
        forgetQueries := by
  simp only [probe]
  split_ifs
  · rfl
  refine andThen_forget (primitives.toChecksumAddress address, world, asked)
    fun checksum world => ?_
  rw [verifyChain_forget world]
  refine andThen_forget _ fun _ world => ?_
  refine andThen_forget (ports.recorded.block .finalized world) fun finalized world => ?_
  refine andThen_forget (ports.recorded.code checksum finalized.number world) fun code world => ?_
  split_ifs
  · rfl
  · have searched := run_map forgetSearch forgetQueries
      (@searchRound_forget World ports checksum) rounds ⟨0, finalized.number, world⟩
    rw [forgetSearch] at searched
    dsimp only at searched
    rw [searched]
    cases run (searchRound ports.recorded checksum) rounds ⟨0, finalized.number, world⟩ with
    | none => rfl
    | some found =>
        refine andThen_forget found fun low world => ?_
        exact andThen_forget (ports.recorded.block (.number low) world) fun _ _ => rfl

end Erasure

/-- A probe of a deployed contract returns what a search finds. -/
theorem exists_probe (answers : ports.Answers checksum discovery.chainId finalized history)
    {address : Text} (valid : primitives.isAddress address = true)
    (normalized : primitives.toChecksumAddress address = .ok checksum)
    (deployed : history finalized ≠ []) (world : World) :
    ∃ probe finish asked,
      (∀ rounds > Nat.clog 2 (finalized + 1),
        discovery.probe primitives ports.recorded rounds address (world, []) =
          some (.ok probe, finish, asked)) ∧
      Finds history finalized probe.deploymentBlockNumber asked ∧
      probe.deploymentConfidence = .exact ∧ probe.deploymentConfidenceValue = 100 := by
  rcases exists_probe_at answers.answersAt valid normalized world deployed with
    ⟨found, blockHash, before, finish, asked, probed, finds, _⟩
  exact ⟨_, finish, asked, probed, finds, rfl, rfl⟩

/--
A probe of a contract that has code at the finalized block ends, after as many code
queries as a bisection takes and one more, at a block where code begins; where code
that is there stays there, this is the first block with code.
-/
theorem probe_findsBoundary (answers : ports.Answers checksum discovery.chainId finalized history)
    {address : Text} (valid : primitives.isAddress address = true)
    (normalized : primitives.toChecksumAddress address = .ok checksum)
    (deployed : history finalized ≠ []) (world : World) :
    ∃ probe finish asked,
      (∀ rounds > Nat.clog 2 (finalized + 1),
        discovery.probe primitives ports.recorded rounds address (world, []) =
          some (.ok probe, finish, asked)) ∧
      asked.length ≤ 1 + Nat.clog 2 (finalized + 1) ∧
      probe.deploymentBlockNumber ≤ finalized ∧
      history probe.deploymentBlockNumber ≠ [] ∧
      (probe.deploymentBlockNumber ≠ 0 → history (probe.deploymentBlockNumber - 1) = []) ∧
      ((∀ earlier later, earlier ≤ later → later ≤ finalized →
          history earlier ≠ [] → history later ≠ []) →
        ∀ block < probe.deploymentBlockNumber, history block = []) := by
  rcases exists_probe answers valid normalized deployed world with
    ⟨probe, finish, asked, probed, finds, _⟩
  refine ⟨probe, finish, asked, probed, finds.queries, finds.le, finds.present, finds.absent, ?_⟩
  intro stays block block_lt
  by_contra code
  have positive : probe.deploymentBlockNumber ≠ 0 := Nat.ne_zero_of_lt block_lt
  have found_le := finds.le
  exact stays block (probe.deploymentBlockNumber - 1) (by omega) (by omega) code
    (finds.absent positive)

section Samples

/-- A provider that answers from a history of code up to a finalized block. -/
def historyPorts (history : ℕ → Bytes) (finalized : ℕ) : DiscoveryPorts Unit where
  chainId _ := (.ok 1, ())
  block tag _ :=
    match tag with
    | .number number => (.ok ⟨number, marker ++ hex (AbiEncoding.word number)⟩, ())
    | .finalized => (.ok ⟨finalized, marker ++ hex (AbiEncoding.word finalized)⟩, ())
  code _ number _ := (.ok (history number), ())

theorem answers_historyPorts (checksum : Text) (history : ℕ → Bytes) (finalized : ℕ) :
    (historyPorts history finalized).Answers checksum 1 finalized history where
  chainId _ := rfl
  finalized _ := ⟨_, rfl⟩
  block _ _ := ⟨_, rfl⟩
  code _ _ := rfl

/-- The discovery of the first chain. -/
def mainnet : EthereumCollectionDiscovery := {}

/-- The sample contract. -/
def contractText : Text := marker ++ hex sampleAddress.val

theorem isAddress_contractText : sampleHashes.isAddress contractText = true := by
  decide +kernel

theorem checksum_contractText :
    sampleHashes.toChecksumAddress contractText = .ok contractText := rfl

/-- A contract that is deployed at block 7 and stays. -/
def deployedHistory (block : ℕ) : Bytes := if 7 ≤ block then [0x60, 0x00] else []

theorem deployedHistory_stays {earlier later : ℕ} (ordered : earlier ≤ later)
    (code : deployedHistory earlier ≠ []) : deployedHistory later ≠ [] := by
  simp only [deployedHistory] at code ⊢
  split_ifs at code with deployed
  · rw [if_pos (deployed.trans ordered)]
    exact code
  · exact absurd rfl code

end Samples

theorem deployedContract_boundary :
    ∃ probe finish, mainnet.probe sampleHashes
        (historyPorts deployedHistory 20).recorded 6 contractText ((), []) =
          some (.ok probe, finish, [6, 7, 8, 5, 10, 20]) ∧
      [6, 7, 8, 5, 10, 20].length ≤ 1 + Nat.clog 2 21 ∧ probe.deploymentBlockNumber = 7 ∧
      ∀ block < 7, deployedHistory block = [] := by
  have executed : (mainnet.probe sampleHashes
      (historyPorts deployedHistory 20).recorded 6 contractText ((), [])).map
        (fun result => (result.1.toOption.map CollectionProbe.deploymentBlockNumber, result.2.2)) =
      some (some 7, [6, 7, 8, 5, 10, 20]) := by
    decide +kernel
  have answers : (historyPorts deployedHistory 20).Answers contractText mainnet.chainId 20
      deployedHistory := answers_historyPorts _ _ _
  rcases probe_findsBoundary answers isAddress_contractText checksum_contractText (by decide) ()
    with ⟨probe, finish, asked, probed, queries, _, _, _, first⟩
  rw [probed 6 (by decide), Option.map_some, Option.some.injEq, Prod.mk.injEq] at executed
  rcases executed with ⟨found, rfl⟩
  have found : probe.deploymentBlockNumber = 7 := Option.some.inj found
  refine ⟨probe, finish, probed 6 (by decide), queries, found, ?_⟩
  rw [← found]
  exact first fun _ _ ordered _ => deployedHistory_stays ordered

section Exactness

/-- The first block at which the address has code. -/
def IsFirst (history : ℕ → Bytes) (first : ℕ) : Prop :=
  history first ≠ [] ∧ ∀ block < first, history block = []

/-- On its way to the first block with code, a bisection meets no later block without code. -/
def MeetsNoGap (history : ℕ → Bytes) (finalized : ℕ) : Prop :=
  ∀ first, IsFirst history first → ∀ block, LooksAt first 0 finalized block → first ≤ block →
    history block ≠ []

/-- The ways to two blocks part at a block between them. -/
theorem exists_looksAt_between {target other low high : ℕ} (low_le : low ≤ target)
    (apart : target < other) (le_high : other ≤ high) :
    ∃ block, LooksAt target low high block ∧ LooksAt other low high block ∧ target ≤ block ∧
      block < other := by
  induction size : high - low using Nat.strong_induction_on generalizing low high with
  | _ size ih =>
      have open_ : low < high := by omega
      rcases Nat.lt_or_ge ((low + high) / 2) target with right | left
      · rcases ih _ (by omega) (show (low + high) / 2 + 1 ≤ target by omega) le_high rfl with
          ⟨block, first, second, between⟩
        exact ⟨block, .upper open_ right first, .upper open_ (right.trans apart) second, between⟩
      · rcases Nat.lt_or_ge ((low + high) / 2) other with middle | right
        · exact ⟨_, .here open_, .here open_, left, middle⟩
        · rcases ih _ (by omega) low_le right rfl with ⟨block, first, second, between⟩
          exact ⟨block, .lower open_ left first, .lower open_ right second, between⟩

/-- A search finds the first block with code exactly if it meets no gap on the way to it. -/
theorem Finds.noCodeBelow_iff {found : ℕ} {asked : List ℕ}
    (finds : Finds history finalized found asked) :
    (∀ block < found, history block = []) ↔ MeetsNoGap history finalized := by
  constructor
  · intro noneBelow first isFirst block looks first_le
    have same : first = found := by
      rcases Nat.lt_trichotomy first found with below | same | later
      · exact absurd (noneBelow first below) isFirst.1
      · exact same
      · exact absurd (isFirst.2 found later) finds.present
    exact (finds.seen block (same ▸ looks)).mpr (same ▸ first_le)
  · intro noGap
    have coded : ∃ block, history block ≠ [] := ⟨found, finds.present⟩
    let first := Nat.find coded
    have isFirst : IsFirst history first :=
      ⟨Nat.find_spec coded, fun block block_lt => not_not.mp (Nat.find_min coded block_lt)⟩
    have first_le : first ≤ found := Nat.find_min' coded finds.present
    rcases Nat.lt_or_eq_of_le first_le with below | same
    · rcases exists_looksAt_between (Nat.zero_le first) below finds.le with
        ⟨block, toFirst, toFound, first_le_block, block_lt⟩
      have code := noGap first isFirst block toFirst first_le_block
      exact absurd ((finds.seen block toFound).mp code) (Nat.not_le_of_lt block_lt)
    · exact same ▸ isFirst.2

/--
A probe reports its deployment block as exact with full confidence in any case; it is
exact, without code at any earlier block, if and only if a bisection meets no gap in
the history on its way to the first block with code.
-/
theorem probe_isExact_iff (answers : ports.Answers checksum discovery.chainId finalized history)
    {address : Text} (valid : primitives.isAddress address = true)
    (normalized : primitives.toChecksumAddress address = .ok checksum)
    (deployed : history finalized ≠ []) (world : World) :
    ∃ probe finish asked,
      (∀ rounds > Nat.clog 2 (finalized + 1),
        discovery.probe primitives ports.recorded rounds address (world, []) =
          some (.ok probe, finish, asked)) ∧
      probe.deploymentConfidence = .exact ∧ probe.deploymentConfidenceValue = 100 ∧
      ((∀ block < probe.deploymentBlockNumber, history block = []) ↔
        MeetsNoGap history finalized) := by
  rcases exists_probe answers valid normalized deployed world with
    ⟨probe, finish, asked, probed, finds, exact_, value_eq⟩
  exact ⟨probe, finish, asked, probed, exact_, value_eq, finds.noCodeBelow_iff⟩

/-- A contract that is destroyed after block 1 and created again at block 4. -/
def recreatedHistory (block : ℕ) : Bytes := if block = 1 ∨ block = 4 then [0x60, 0x00] else []

/-- The block at which the contract was created again is reported as exact. -/
theorem recreatedContract_notExact :
    ¬∀ (history : ℕ → Bytes) (finalized : ℕ), history finalized ≠ [] →
      ∀ (rounds : ℕ) (probe : CollectionProbe) (finish : Unit),
        mainnet.probe sampleHashes (historyPorts history finalized)
            rounds contractText () = some (.ok probe, finish) →
        probe.deploymentConfidence = .exact → probe.deploymentConfidenceValue = 100 →
        ∀ block < probe.deploymentBlockNumber, history block = [] := by
  intro claimed
  have executed : mainnet.probe sampleHashes
      (historyPorts recreatedHistory 4) 3 contractText () =
        some (.ok ⟨contractText, contractText, 4, marker ++ hex (AbiEncoding.word 4), .exact, 100⟩,
          ()) := by
    rfl
  have none := claimed recreatedHistory 4 (by decide) 3 _ () executed rfl rfl 1 (by decide)
  exact absurd none (by decide)

/-- The first block of the contract is missed, since a bisection looks at block 2 on its way. -/
theorem recreatedContract_isExact_iff :
    ∃ probe finish asked,
      mainnet.probe sampleHashes
          (historyPorts recreatedHistory 4).recorded 4 contractText ((), []) =
        some (.ok probe, finish, asked) ∧
      ¬∀ block < probe.deploymentBlockNumber, recreatedHistory block = [] := by
  have answers : (historyPorts recreatedHistory 4).Answers contractText mainnet.chainId 4
      recreatedHistory := answers_historyPorts _ _ _
  rcases probe_isExact_iff answers isAddress_contractText checksum_contractText (by decide) () with
    ⟨probe, finish, asked, probed, _, _, exact_iff⟩
  refine ⟨probe, finish, asked, probed 4 (by decide), fun noneBelow => ?_⟩
  have isFirst : IsFirst recreatedHistory 1 := ⟨by decide, by decide⟩
  exact exact_iff.mp noneBelow 1 isFirst 2 (.here (by decide)) (by decide) rfl

end Exactness

end Probe

end EthereumCollectionDiscovery

end CopyMint
