import CopyMint.Ethereum.Discovery
import CopyMint.Ethereum.Transparency

/-!
# The deployment search over the wire

The search asks a node through the adapter. Any of its requests may fail, and the head that is
final moves in the meantime. A search that comes to an end has met no failure, and then it went
like one that reads the chain itself: what it returns is a block of the chain where code begins.
-/

namespace CopyMint

open Hexadecimal Fallible Loops

section Ports

variable (client : HttpClient) (raised : AdapterFailure → Raised) (endpoint : Text)

/-- The block that a tag stands for in a request. -/
def BlockTag.argument : BlockTag → BlockArgument
  | .number block => .number block
  | .finalized => .name "finalized".toList

/-- What a call comes to, and the number of requests that have been sent after it. -/
def ProviderCall.answer (call : ProviderCall) (sent : ℕ) : Except Raised call.Value × ℕ :=
  let ran := call.run client ⟨endpoint, sent⟩
  (ran.2.mapError raised, ran.1.requestId)

/-- The adapter as the provider of a search, with the number of requests that have been sent. -/
def wirePorts : DiscoveryPorts ℕ where
  chainId := ProviderCall.chainId.answer client raised endpoint
  block tag := (ProviderCall.block tag.argument).answer client raised endpoint
  code address number := (ProviderCall.code address (.number number)).answer client raised endpoint

end Ports

/-- A chain whose final head depends on the request. -/
structure EvmChain where
  chainId : ℕ
  finalizedAt : ℕ → ℕ
  blockHash : ℕ → Text
  codeAt : Text → ℕ → Bytes

namespace EvmChain

variable (chain : EvmChain)

/-- A block of the chain. -/
def block (number : ℕ) : BlockReference := ⟨number, chain.blockHash number⟩

/-- What is known is true of the chain. -/
structure Describes (known : ℕ → (asked : NodeRequest) → Option asked.Fact) : Prop where
  chainId : ∀ {moment fact}, known moment .chainId = some fact → fact = chain.chainId
  block : ∀ {moment number fact}, known moment (.block (.number number)) = some fact →
    fact = chain.block number
  finalized : ∀ {moment fact}, known moment (.block (.name "finalized".toList)) = some fact →
    fact = chain.block (chain.finalizedAt moment)
  code : ∀ {moment address number fact}, known moment (.code address (.number number)) = some fact →
    fact = chain.codeAt address number

/-- The chain itself as the provider of a search. -/
def ports : DiscoveryPorts ℕ where
  chainId sent := (.ok chain.chainId, sent + 1)
  block tag sent :=
    match tag with
    | .number number => (.ok (chain.block number), sent + 1)
    | .finalized => (.ok (chain.block (chain.finalizedAt (sent + 1))), sent + 1)
  code address number sent := (.ok (chain.codeAt address number), sent + 1)

end EvmChain

/-- Every answer of a provider is one that another provider gives. -/
structure DiscoveryPorts.Refines {World : Type} (ports ideal : DiscoveryPorts World) : Prop where
  chainId : ∀ {world answer later}, ports.chainId world = (.ok answer, later) →
    ideal.chainId world = (.ok answer, later)
  block : ∀ {tag world answer later}, ports.block tag world = (.ok answer, later) →
    ideal.block tag world = (.ok answer, later)
  code : ∀ {address number world answer later},
    ports.code address number world = (.ok answer, later) →
      ideal.code address number world = (.ok answer, later)

section Wire

variable {client : HttpClient} {raised : AdapterFailure → Raised} {endpoint : Text}
  {known : ℕ → (asked : NodeRequest) → Option asked.Fact} {chain : EvmChain}

/-- A call that returns has sent one request, and returns what is known. -/
theorem ProviderCall.answer_eq_ok {call : ProviderCall} {sent later : ℕ} {value : call.Value}
    (reaches : client.ReachesNode endpoint known) (valid : ¬call.InvalidRange)
    (answered : call.answer client raised endpoint sent = (.ok value, later)) :
    later = sent + 1 ∧
      ∃ fact, known (sent + 1) call.asked = some fact ∧ call.value fact = value := by
  have transparent := (@run_transparent client ⟨endpoint, sent⟩ known reaches call).2 valid
  rcases Prod.mk.inj answered with ⟨returned, rfl⟩
  have returned := mapError_eq_ok_iff.mp returned
  exact ⟨congrArg JsonRpcEvmProvider.requestId transparent.1,
    Option.map_eq_some_iff.mp ((transparent.2.1 value).mp returned).2⟩

/-- The adapter answers as the chain does, where it answers. -/
theorem wirePorts_refines (reaches : client.ReachesNode endpoint known)
    (describes : chain.Describes known) :
    (wirePorts client raised endpoint).Refines chain.ports where
  chainId answered := by
    rcases ProviderCall.answer_eq_ok reaches id answered with ⟨rfl, fact, knows, rfl⟩
    rw [describes.chainId knows]
    rfl
  block {tag} _ _ _ answered := by
    rcases ProviderCall.answer_eq_ok reaches id answered with ⟨rfl, fact, knows, rfl⟩
    cases tag with
    | number number =>
        have same : fact = chain.block number := describes.block knows
        rw [same]
        rfl
    | finalized =>
        have same : fact = chain.block _ := describes.finalized knows
        rw [same]
        rfl
  code answered := by
    rcases ProviderCall.answer_eq_ok reaches id answered with ⟨rfl, fact, knows, rfl⟩
    rw [describes.code knows]
    rfl

end Wire

namespace EthereumCollectionDiscovery

section Inversion

variable {World : Type} {primitives : Primitives} {discovery : EthereumCollectionDiscovery}
  {ports ideal : DiscoveryPorts World} {checksum : Text}

theorem andThen_eq_ok_iff {Answer Result : Type} {answered : Except Raised Answer × World}
    {next : Answer → World → Option (Except DiscoveryFailure Result × World)}
    {result : Result} {finish : World} :
    andThen answered next = some (.ok result, finish) ↔
      ∃ answer world, answered = (.ok answer, world) ∧
        next answer world = some (.ok result, finish) := by
  rcases answered with ⟨raised | answer, world⟩ <;> simp [andThen]

/-- What a probe has come through when it returns. -/
structure Returned (primitives : Primitives) (discovery : EthereumCollectionDiscovery)
    (ports : DiscoveryPorts World) (rounds : ℕ) (address : Text) (world : World)
    (probe : CollectionProbe) (finish : World) (checksum : Text) : Prop where
  valid : primitives.isAddress address = true
  normalized : primitives.toChecksumAddress address = .ok checksum
  searched : ∃ first finalized second code third found fourth deployment,
    ports.chainId world = (.ok discovery.chainId, first) ∧
      ports.block .finalized first = (.ok finalized, second) ∧
      ports.code checksum finalized.number second = (.ok code, third) ∧ code ≠ [] ∧
      run (searchRound ports checksum) rounds ⟨0, finalized.number, third⟩ =
        some (.ok found, fourth) ∧
      ports.block (.number found) fourth = (.ok deployment, finish) ∧
      probe = ⟨lower checksum, checksum, deployment.number, deployment.blockHash, .exact, 100⟩

theorem verifyChain_eq_ok {world later : World}
    (verified : discovery.verifyChain ports world = (.ok (), later)) :
    ports.chainId world = (.ok discovery.chainId, later) := by
  simp only [verifyChain] at verified
  generalize ports.chainId world = answered at verified ⊢
  rcases answered with ⟨raised | actual, world⟩
  · cases verified
  · dsimp only at verified
    split_ifs at verified with other
    · cases verified
    · rcases Prod.mk.inj verified with ⟨_, rfl⟩
      rw [not_not.mp other]

theorem exists_returned {rounds : ℕ} {address : Text} {world finish : World}
    {probe : CollectionProbe}
    (probed : discovery.probe primitives ports rounds address world = some (.ok probe, finish)) :
    ∃ checksum, Returned primitives discovery ports rounds address world probe finish checksum := by
  simp only [EthereumCollectionDiscovery.probe] at probed
  split_ifs at probed with invalid
  · cases probed
  have valid : primitives.isAddress address = true := by simpa using invalid
  rcases andThen_eq_ok_iff.mp probed with ⟨checksum, _, normalized, probed⟩
  rcases Prod.mk.inj normalized with ⟨spelled, rfl⟩
  rcases andThen_eq_ok_iff.mp probed with ⟨_, first, verified, probed⟩
  rcases andThen_eq_ok_iff.mp probed with ⟨finalized, second, finalized_eq, probed⟩
  rcases andThen_eq_ok_iff.mp probed with ⟨code, third, code_eq, probed⟩
  split_ifs at probed with absent
  · cases probed
  split at probed
  · cases probed
  · rename_i searched ran
    rcases andThen_eq_ok_iff.mp probed with ⟨found, fourth, ended, probed⟩
    rcases andThen_eq_ok_iff.mp probed with ⟨deployment, fifth, deployment_eq, probed⟩
    rw [ended] at ran
    cases probed
    exact ⟨checksum, valid, spelled, first, finalized, second, code, third, found, fourth,
      deployment, verifyChain_eq_ok verified, finalized_eq, code_eq, absent, ran, deployment_eq,
      rfl⟩

/-- A round that goes on, or finds a block, goes the same way with a refined provider. -/
theorem searchRound_of_refines (refines : ports.Refines ideal) {search : SearchState World}
    {played : Round (SearchState World) (Except Raised ℕ × World)}
    (round : searchRound ports checksum search = played)
    (answered : ∀ raised world, played ≠ .exit (.error raised, world)) :
    searchRound ideal checksum search = played := by
  subst round
  simp only [searchRound] at answered ⊢
  split_ifs at answered ⊢ with open_
  · generalize asked : ports.code checksum ((search.low + search.high) / 2) search.world = reply
      at answered ⊢
    rcases reply with ⟨raised | code, world⟩
    · exact absurd rfl (answered raised world)
    · rw [refines.code asked]
  · rfl

/-- A search that comes to an end met no failure, and a refined provider leads it there as well. -/
theorem run_searchRound_of_refines (refines : ports.Refines ideal) {rounds found : ℕ}
    {search : SearchState World} {finish : World}
    (ran : run (searchRound ports checksum) rounds search = some (.ok found, finish)) :
    run (searchRound ideal checksum) rounds search = some (.ok found, finish) := by
  refine run_of_imp (fun result => ∃ found, result.1 = .ok found) ?_ ?_ ran ⟨found, rfl⟩
  · intro before after goesOn
    refine searchRound_of_refines refines goesOn fun raised world impossible => ?_
    cases impossible
  · rintro before ⟨_, world⟩ leaves ⟨found, rfl⟩
    refine searchRound_of_refines refines leaves fun raised world impossible => ?_
    cases impossible

end Inversion

section Chain

variable {chain : EvmChain} {checksum : Text}

theorem answersAt_ports (chain : EvmChain) (checksum : Text) :
    chain.ports.AnswersAt checksum chain.chainId (fun sent => chain.finalizedAt (sent + 1))
      (chain.codeAt checksum) where
  chainId _ := rfl
  finalized _ := ⟨_, rfl⟩
  block _ _ := ⟨_, rfl⟩
  code _ _ := rfl

/-- Every query of a search is one request. -/
theorem searchRound_counts {search : SearchState (ℕ × List ℕ)} {sent : ℕ}
    (counted : search.world.1 + 1 = sent + search.world.2.length) :
    (∀ after, searchRound chain.ports.recorded checksum search = .next after →
        after.world.1 + 1 = sent + after.world.2.length) ∧
      ∀ result, searchRound chain.ports.recorded checksum search = .exit result →
        result.2.1 + 1 = sent + result.2.2.length := by
  rcases search with ⟨low, high, last, asked⟩
  have later : last + 1 + 1 = sent + (asked.length + 1) := by
    have counted : last + 1 = sent + asked.length := counted
    omega
  simp only [searchRound, DiscoveryPorts.recorded, EvmChain.ports]
  split_ifs
  all_goals refine ⟨fun after goesOn => ?_, fun result leaves => ?_⟩
  · cases goesOn
    exact later
  · cases leaves
  · cases goesOn
    exact later
  · cases leaves
  · cases goesOn
  · cases leaves
    exact counted

/-- Where a search of a chain ends, and how many requests it has sent. -/
theorem exists_finds {rounds head found sent finish : ℕ}
    (deployed : chain.codeAt checksum head ≠ [])
    (ran : run (searchRound chain.ports checksum) rounds ⟨0, head, sent⟩ =
      some (.ok found, finish)) :
    ∃ asked, Finds (chain.codeAt checksum) head found asked ∧
      finish + 1 = sent + asked.length := by
  have follows := run_map forgetSearch forgetQueries
    (@searchRound_forget ℕ chain.ports checksum) rounds ⟨0, head, sent, [head]⟩
  have forgotten : forgetSearch ⟨0, head, sent, [head]⟩ = (⟨0, head, sent⟩ : SearchState ℕ) := rfl
  rw [forgotten, ran] at follows
  rcases Option.map_eq_some_iff.mp follows.symm with ⟨⟨result, last, asked⟩, recorded, same⟩
  cases same
  have answers := answersAt_ports chain checksum
  rcases run_invariant
    (fun search => Searches (chain.codeAt checksum) head search.low search.high search.world.2)
    (fun result => ∃ found, result.1 = .ok found ∧
      Finds (chain.codeAt checksum) head found result.2.2)
    (fun holds played => (Searches.next answers holds played).1)
    (fun holds played => Searches.exit answers holds played) recorded
    (searches_initial deployed rfl) with ⟨_, same, finds⟩
  cases same
  have counted := run_invariant
    (fun search => search.world.1 + 1 = sent + search.world.2.length)
    (fun result => result.2.1 + 1 = sent + result.2.2.length)
    (fun holds played => (searchRound_counts holds).1 _ played)
    (fun holds played => (searchRound_counts holds).2 _ played) recorded rfl
  exact ⟨asked, finds, counted⟩

/-- What a search of a chain finds: a block where code begins, the first one if it met no gap. -/
structure Deployed (history : ℕ → Bytes) (head found : ℕ) : Prop where
  le : found ≤ head
  present : history found ≠ []
  absent : found ≠ 0 → history (found - 1) = []
  first_iff : (∀ block < found, history block = []) ↔ MeetsNoGap history head

/--
A probe over the wire that returns has met a node of the configured chain. It returns a block that
was final when it asked, with the hash of that block; the chain has code of the address there and
none right before, and the block is the first one with code exactly if a bisection of the chain
itself finds the first one. It sent four requests and those of a bisection.
-/
theorem probe_overWire {primitives : Primitives} {discovery : EthereumCollectionDiscovery}
    {client : HttpClient} {raised : AdapterFailure → Raised} {endpoint address : Text}
    {known : ℕ → (asked : NodeRequest) → Option asked.Fact} {rounds sent finish : ℕ}
    {probe : CollectionProbe} (reaches : client.ReachesNode endpoint known)
    (describes : chain.Describes known)
    (probed : discovery.probe primitives (wirePorts client raised endpoint) rounds address sent =
      some (.ok probe, finish)) :
    chain.chainId = discovery.chainId ∧
      primitives.toChecksumAddress address = .ok probe.checksumAddress ∧
      Deployed (chain.codeAt probe.checksumAddress) (chain.finalizedAt (sent + 2))
        probe.deploymentBlockNumber ∧
      probe.deploymentBlockHash = chain.blockHash probe.deploymentBlockNumber ∧
      finish ≤ sent + 4 + Nat.clog 2 (chain.finalizedAt (sent + 2) + 1) := by
  have refines : (wirePorts client raised endpoint).Refines chain.ports :=
    wirePorts_refines reaches describes
  rcases exists_returned probed with ⟨checksum, returned⟩
  rcases returned.searched with ⟨first, finalized, second, code, third, found, fourth, deployment,
    chainId_eq, finalized_eq, code_eq, present, ran, deployment_eq, rfl⟩
  have chainId_eq := refines.chainId chainId_eq
  have finalized_eq := refines.block finalized_eq
  have code_eq := refines.code code_eq
  have deployment_eq := refines.block deployment_eq
  have ran := run_searchRound_of_refines refines ran
  rcases Prod.mk.inj chainId_eq with ⟨configured, rfl⟩
  cases finalized_eq
  cases code_eq
  cases deployment_eq
  rcases exists_finds present ran with ⟨asked, finds, requests⟩
  have queries : asked.length ≤ 1 + Nat.clog 2 (chain.finalizedAt (sent + 2) + 1) := finds.queries
  refine ⟨Except.ok.inj configured, returned.normalized, ?_, rfl, ?_⟩
  · exact ⟨finds.le, finds.present, finds.absent, finds.noCodeBelow_iff⟩
  · omega

section Samples

/-- The chain of the sample node. -/
def sampleEvmChain : EvmChain where
  chainId := 1
  finalizedAt moment := moment
  blockHash number := (sampleReference number).blockHash
  codeAt _ := sampleCode

theorem describes_sampleEvmChain : sampleEvmChain.Describes sampleKnown where
  chainId knows := (Option.some.inj knows).symm
  block knows := by
    rcases Option.ite_none_right_eq_some.mp knows with ⟨_, same⟩
    exact (Option.some.inj same).symm
  finalized knows := by
    rcases Option.ite_none_right_eq_some.mp knows with ⟨_, same⟩
    exact (Option.some.inj same).symm
  code knows := by
    rcases Option.ite_none_right_eq_some.mp knows with ⟨_, same⟩
    exact (Option.some.inj same).symm

end Samples

/-- The seven requests of a probe, the second of which finds block 9 to be final. -/
theorem sampleContract_overWire :
    ∃ probe, mainnet.probe sampleHashes
        (wirePorts sampleNode (fun _ => .decodingError) "https://rpc".toList) 6 contractText 7 =
          some (.ok probe, 14) ∧
      probe.deploymentBlockNumber ≤ 9 ∧ sampleCode probe.deploymentBlockNumber ≠ [] := by
  have executed : ((mainnet.probe sampleHashes
      (wirePorts sampleNode (fun _ => .decodingError) "https://rpc".toList) 6 contractText 7).any
        fun result => result.1.isOk && result.2 = 14) = true := by
    decide +kernel
  rcases (Option.any_eq_true _ _).mp executed with ⟨⟨failure | probe, finish⟩, probed, ended⟩
  · cases ended
  · have ended : finish = 14 := of_decide_eq_true ended
    subst ended
    have overWire := probe_overWire (reachesNode_sampleNode "https://rpc".toList)
      describes_sampleEvmChain probed
    exact ⟨probe, probed, overWire.2.2.1.le, overWire.2.2.1.present⟩

end Chain

end EthereumCollectionDiscovery

end CopyMint
