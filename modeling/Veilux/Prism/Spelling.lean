/-
Quorums of keys and quorums of texts.  Bridge and oracle compare the texts of the keys
they count and decode them afterwards, so a key that is listed in two spellings counts
twice.
-/

import Veilux.Lib.Distinct
import Veilux.Prism.BridgeRuns
import Veilux.Prism.Oracle

namespace Veilux

/-! ### Listed texts and their keys -/

namespace Spelling

variable [Ed25519] (decode : String → Option (List UInt8))

omit [Ed25519] in
def keyOf (text : String) : Option (Vector UInt8 32) := (decode text).bind (exactly 32)

/-- Some signature over the message verifies under the key the text stands for. -/
def Signable (message : List UInt8) (text : String) : Prop :=
  ∃ key signature, decode text = some key ∧ verifyBytes key message signature = .ok ()

open Classical in
/-- The listed texts that can be signed for. -/
noncomputable def signable (listed : List String) (message : List UInt8) : Finset String :=
  listed.toFinset.filter (Signable decode message)

/-- The quorum is one, or too few listed texts can be signed for, or no two of these
stand for the same key. -/
def NoTwins (listed : List String) (message : List UInt8) (quorum : Nat) : Prop :=
  Distinct.Faithful (keyOf decode) (signable decode listed message) quorum

/-- Key and signature texts of one entry verify over the message. -/
def Verifies (message : List UInt8) (entry : String × String) : Prop :=
  ∃ key signature, decode entry.1 = some key ∧ decode entry.2 = some signature ∧
    verifyBytes key message signature = .ok ()

/-- A quorum of pairwise different 32-byte keys of the list has signed the message. -/
def SignedByKeys (listed : List String) (message : List UInt8) (entries : List (String × String))
    (quorum : Nat) : Prop :=
  ∃ keys : Finset (Vector UInt8 32), quorum ≤ keys.card ∧ ∀ key ∈ keys,
    ∃ entry ∈ entries, entry.1 ∈ listed ∧ keyOf decode entry.1 = some key ∧
      Verifies decode message entry

variable {decode} {listed : List String} {message : List UInt8} {quorum : Nat}
  {entries : List (String × String)}

theorem mem_signable {text : String} :
    text ∈ signable decode listed message ↔ text ∈ listed ∧ Signable decode message text := by
  unfold signable
  simp only [Finset.mem_filter, List.mem_toFinset]

theorem verifyBytes_exactly {key message signature : List UInt8}
    (verified : verifyBytes key message signature = .ok ()) :
    ∃ bytes, exactly 32 key = some bytes := by
  unfold verifyBytes at verified
  cases sized : exactly 32 key with
  | none =>
      rw [sized] at verified
      cases verified
  | some bytes => exact ⟨bytes, rfl⟩

theorem Verifies.keyOf_eq {entry : String × String} (verified : Verifies decode message entry) :
    ∃ key, keyOf decode entry.1 = some key := by
  obtain ⟨key, signature, decoded, _, valid⟩ := verified
  obtain ⟨bytes, sized⟩ := verifyBytes_exactly valid
  refine ⟨bytes, ?_⟩
  unfold keyOf
  rw [decoded, Option.bind_some, sized]

theorem Verifies.signable {entry : String × String} (member : entry.1 ∈ listed)
    (verified : Verifies decode message entry) : entry.1 ∈ signable decode listed message := by
  obtain ⟨key, signature, decoded, _, valid⟩ := verified
  exact mem_signable.mpr ⟨member, key, signature, decoded, valid⟩

/-- Without twins, a quorum of different texts is a quorum of different keys. -/
theorem NoTwins.signedByKeys (single : NoTwins decode listed message quorum)
    {names : List String} (distinct : names.Nodup) (enough : quorum ≤ names.length)
    (endorsed : ∀ name ∈ names, ∃ entry ∈ entries, entry.1 = name ∧ entry.1 ∈ listed ∧
      Verifies decode message entry) : SignedByKeys decode listed message entries quorum := by
  have inside : names.toFinset ⊆ signable decode listed message := by
    intro name member
    obtain ⟨entry, _, rfl, listed, verified⟩ := endorsed name (List.mem_toFinset.mp member)
    exact verified.signable listed
  have card : names.toFinset.card = names.length := List.toFinset_card_of_nodup distinct
  have covered := Distinct.Faithful.quorum single inside (by omega)
  refine ⟨(names.toFinset.image (keyOf decode)).eraseNone, ?_, ?_⟩
  · have noNone : none ∉ names.toFinset.image (keyOf decode) := by
      intro member
      obtain ⟨name, inNames, absent⟩ := Finset.mem_image.mp member
      obtain ⟨entry, _, rfl, _, verified⟩ := endorsed name (List.mem_toFinset.mp inNames)
      obtain ⟨key, found⟩ := verified.keyOf_eq
      rw [found] at absent
      cases absent
    rw [← Finset.card_map Function.Embedding.some, Finset.map_some_eraseNone,
      Finset.erase_eq_of_notMem noNone]
    exact covered
  · intro key member
    rw [Finset.mem_eraseNone, Finset.mem_image] at member
    obtain ⟨name, inNames, found⟩ := member
    obtain ⟨entry, inEntries, rfl, listed, verified⟩ := endorsed name (List.mem_toFinset.mp inNames)
    exact ⟨entry, inEntries, listed, found, verified⟩

/-- Entries that sign for each of the names, with the signatures written in plain hex. -/
theorem exists_entries {names : Finset String} (encode : List UInt8 → String)
    (decodes : ∀ bytes, decode (encode bytes) = some bytes)
    (inside : names ⊆ signable decode listed message) :
    ∃ entries : List (String × String), entries.map Prod.fst = names.toList ∧
      ∀ entry ∈ entries, entry.1 ∈ listed ∧ Verifies decode message entry := by
  have each : ∀ name ∈ names, ∃ text, Verifies decode message (name, text) := by
    intro name member
    obtain ⟨_, key, signature, decoded, valid⟩ := mem_signable.mp (inside member)
    exact ⟨encode signature, key, signature, decoded, decodes signature, valid⟩
  choose text verified using each
  refine ⟨names.toList.attach.map fun name =>
    (name.val, text name.val (Finset.mem_toList.mp name.property)), ?_, ?_⟩
  · rw [List.map_map]
    exact List.attach_map_subtype_val _
  · intro entry member
    obtain ⟨name, _, rfl⟩ := List.mem_map.mp member
    have inNames := Finset.mem_toList.mp name.property
    exact ⟨(mem_signable.mp (inside inNames)).1, verified name.val inNames⟩

/-- If every list of entries for exactly a quorum of texts was signed by a quorum of keys,
there are no twins. -/
theorem noTwins_of_signedByKeys (encode : List UInt8 → String)
    (decodes : ∀ bytes, decode (encode bytes) = some bytes)
    (covers : ∀ entries : List (String × String), (entries.map Prod.fst).Nodup →
      entries.length = quorum → (∀ entry ∈ entries, entry.1 ∈ listed ∧
        Verifies decode message entry) → SignedByKeys decode listed message entries quorum) :
    NoTwins decode listed message quorum := by
  apply Distinct.faithful_of_quorums
  intro counted inside size
  obtain ⟨entries, names, valid⟩ := exists_entries encode decodes inside
  have length : entries.length = quorum := by
    rw [← size, ← Finset.length_toList, ← names, List.length_map]
  obtain ⟨keys, enough, signed⟩ :=
    covers entries (names ▸ Finset.nodup_toList counted) length valid
  have inImage : keys.map Function.Embedding.some ⊆ counted.image (keyOf decode) := by
    intro key member
    obtain ⟨bytes, inKeys, rfl⟩ := Finset.mem_map.mp member
    obtain ⟨entry, inEntries, _, found, _⟩ := signed bytes inKeys
    refine Finset.mem_image.mpr ⟨entry.1, ?_, found⟩
    rw [← Finset.mem_toList, ← names]
    exact List.mem_map_of_mem inEntries
  have bound := Finset.card_le_card inImage
  rw [Finset.card_map] at bound
  exact enough.trans bound

end Spelling

open PrismM
open Spelling (SignedByKeys NoTwins)

section Quorums

variable [SerdeJson] [Blake3] [Ed25519]

/-! ### Redeems -/

namespace BridgePrism

def entry (signature : GuardianSignature) : String × String :=
  (signature.publicKey, signature.signature)

omit [SerdeJson] [Blake3] in
theorem verifyQuorum_signedByKeys {config : BridgeConfig} {digest : Hash}
    {signatures : List GuardianSignature} {verified : Nat}
    (single : NoTwins hexToBytes config.guardians digest.asBytes config.quorum)
    (returned : verifyQuorum config digest signatures = .ok verified) :
    SignedByKeys hexToBytes config.guardians digest.asBytes (signatures.map entry)
      config.quorum := by
  obtain ⟨signers, distinct, enough, signed⟩ := verifyQuorum_spec returned
  apply single.signedByKeys distinct enough
  intro guardian member
  obtain ⟨signature, inSignatures, rfl, listed, verified⟩ := signed guardian member
  exact ⟨entry signature, List.mem_map_of_mem inSignatures, rfl, listed, verified⟩

/-- Whatever signatures come with the transfer, an accepted redeem was signed by a quorum of
different keys; exactly when the redeem cannot be accepted at all or the registered
guardians have no twins. -/
theorem redeem_keys_iff (state : StateTree) (command : Command) (transfer : InboundTransfer) :
    (∀ signatures output after config,
      Accepts (redeem command transfer signatures) state output after →
      Registered state config transfer.chain →
        SignedByKeys hexToBytes config.guardians transfer.digest.asBytes (signatures.map entry)
          config.quorum) ↔
    ∀ config, Registered state config transfer.chain →
      transfer.sequence = sequenceAt state (seqKey transfer.chain) →
      (TokenPrism.balance state transfer.tokenId transfer.recipient).val + transfer.amount.val <
        2 ^ 128 →
      NoTwins hexToBytes config.guardians transfer.digest.asBytes config.quorum := by
  constructor
  · intro covers config registered sequence fits
    apply Spelling.noTwins_of_signedByKeys Bytes.hexEncode hexToBytes_hexEncode
    intro entries distinct size valid
    let signatures := entries.map fun entry => GuardianSignature.mk entry.1 entry.2
    have names : signatures.map GuardianSignature.publicKey = entries.map Prod.fst := by
      rw [List.map_map]
      rfl
    have pairs : signatures.map entry = entries := by
      rw [List.map_map]
      exact List.map_id _
    have endorsed : ∀ signature ∈ signatures,
        Endorses config.guardians transfer.digest signature := by
      intro signature member
      obtain ⟨entry, inEntries, rfl⟩ := List.mem_map.mp member
      exact ⟨(valid entry inEntries).1, (valid entry inEntries).2⟩
    have quorum : verifyQuorum config transfer.digest signatures = .ok signatures.length :=
      verifyQuorum_endorsed endorsed (names ▸ distinct) (by rw [List.length_map, size])
    have added : (TokenPrism.balance state transfer.tokenId transfer.recipient).checkedAdd
        transfer.amount = some ⟨_, fits⟩ := by
      unfold U128.checkedAdd
      rw [dif_pos fits]
    obtain ⟨output, accepted⟩ := redeem_accepted registered sequence quorum added
    have signed := covers signatures output _ config accepted registered
    rwa [pairs] at signed
  · intro single signatures output after config accepted registered
    obtain ⟨stored, verified, credited, found, sequence, quorum, added, _⟩ :=
      accepts_redeem accepted
    have same : stored = config := by
      have reads := found.symm.trans registered
      cases reads
      rfl
    subst same
    apply verifyQuorum_signedByKeys _ quorum
    apply single stored found sequence
    rw [← TokenPrism.checkedAdd_val added]
    exact credited.isLt

end BridgePrism

/-! ### Reports -/

namespace OraclePrism

def entry (signature : ReporterSig) : String × String :=
  (signature.publicKey, signature.signature)

def Stored (state : StateTree) (feed : Feed) (feedId : Hash) : Prop :=
  state.getJson Feed (feedKey feedId) = .ok (some feed)

variable {command : Command} {feedId : Hash} {round : UInt64} {value : List UInt8}
  {signatures : List ReporterSig} {state after : StateTree} {output : PrismOutput}

omit [Blake3] [Ed25519] in
theorem accepts_loadFeed {feed : Feed} :
    Accepts (loadFeed feedId) state feed after ↔ Stored state feed feedId ∧ state = after := by
  unfold loadFeed Stored
  simp only [accepts_bind, accepts_get]
  constructor
  · rintro ⟨_, _, ⟨rfl, rfl⟩, accepted⟩
    cases read : state.getJson Feed (feedKey feedId) with
    | error error => simp only [read, accepts_throw] at accepted
    | ok found =>
        cases found with
        | none => simp only [read, accepts_throw] at accepted
        | some stored =>
            simp only [read, accepts_pure] at accepted
            rw [accepted.1]
            exact ⟨rfl, accepted.2⟩
  · rintro ⟨read, rfl⟩
    refine ⟨state, state, ⟨rfl, rfl⟩, ?_⟩
    simp only [read, accepts_pure, and_self]

/-- A report is accepted when its round is later and the count reaches the quorum. -/
theorem accepts_report_iff :
    (∃ output after, Accepts (report command feedId round value signatures) state output after) ↔
      ∃ feed, Stored state feed feedId ∧ feed.round < round ∧
        feed.quorum ≤ UInt32.ofNat
          (countReporters feed.reporters (reportDigest feedId round value) signatures []).length := by
  unfold report
  constructor
  · rintro ⟨output, after, accepted⟩
    rw [accepts_bind] at accepted
    obtain ⟨feed, _, loaded, accepted⟩ := accepted
    obtain ⟨stored, rfl⟩ := accepts_loadFeed.mp loaded
    rw [accepts_unless] at accepted
    obtain ⟨later, accepted⟩ := accepted
    rw [accepts_unless] at accepted
    exact ⟨feed, stored, UInt64.not_le.mp later, UInt32.not_lt.mp accepted.1⟩
  · rintro ⟨feed, stored, later, enough⟩
    simp only [accepts_bind, accepts_unless, accepts_loadFeed, accepts_modify, accepts_pure]
    exact ⟨_, _, feed, state, ⟨stored, rfl⟩, UInt64.not_le.mpr later, UInt32.not_lt.mpr enough,
      (), _, rfl, (), _, rfl, rfl, rfl⟩

/-- The same of the reports of a feed. -/
theorem report_keys_iff (state : StateTree) (command : Command) (feedId : Hash) (round : UInt64)
    (value : List UInt8) :
    (∀ signatures output after feed,
      Accepts (report command feedId round value signatures) state output after →
      Stored state feed feedId →
        SignedByKeys decodeHex feed.reporters (reportDigest feedId round value)
          (signatures.map entry) feed.quorum.toNat) ↔
    ∀ feed, Stored state feed feedId → feed.round < round →
      NoTwins decodeHex feed.reporters (reportDigest feedId round value) feed.quorum.toNat := by
  constructor
  · intro covers feed stored later
    apply Spelling.noTwins_of_signedByKeys Bytes.hexEncode decodeHex_hexEncode
    intro entries distinct size valid
    let signatures := entries.map fun entry => ReporterSig.mk entry.1 entry.2
    have names : signatures.map ReporterSig.publicKey = entries.map Prod.fst := by
      rw [List.map_map]
      rfl
    have pairs : signatures.map entry = entries := by
      rw [List.map_map]
      exact List.map_id _
    have endorsed : ∀ signature ∈ signatures,
        Endorses feed.reporters (reportDigest feedId round value) signature := by
      intro signature member
      obtain ⟨entry, inEntries, rfl⟩ := List.mem_map.mp member
      exact ⟨(valid entry inEntries).1, (valid entry inEntries).2⟩
    have counted : countReporters feed.reporters (reportDigest feedId round value) signatures [] =
        signatures.map ReporterSig.publicKey :=
      countReporters_endorsed endorsed (names ▸ distinct)
    have enough : feed.quorum ≤ UInt32.ofNat
        (countReporters feed.reporters (reportDigest feedId round value) signatures []).length := by
      rw [counted, names, List.length_map, size, UInt32.ofNat_toNat]
      exact UInt32.le_refl _
    obtain ⟨output, after, accepted⟩ :=
      accepts_report_iff.mpr ⟨feed, stored, later, enough⟩
    have signed := covers signatures output after feed accepted stored
    rwa [pairs] at signed
  · intro single signatures output after feed accepted stored
    obtain ⟨other, found, later, enough⟩ := accepts_report_iff.mp ⟨output, after, accepted⟩
    have same : other = feed := by
      have reads := found.symm.trans stored
      cases reads
      rfl
    subst same
    obtain ⟨distinct, signed⟩ := @countReporters_spec _ other.reporters
      (reportDigest feedId round value) signatures [] List.nodup_nil
    have size := UInt32.le_iff_toNat_le.mp enough
    rw [UInt32.toNat_ofNat'] at size
    have bound := Nat.mod_le (countReporters other.reporters (reportDigest feedId round value)
      signatures []).length (2 ^ 32)
    apply (single other found later).signedByKeys distinct (by omega)
    intro reporter member
    rcases signed reporter member with none | ⟨signature, inSignatures, rfl, listed, verified⟩
    · cases none
    · exact ⟨entry signature, List.mem_map_of_mem inSignatures, rfl, listed, verified⟩

end OraclePrism

/-- Bridge and oracle quorums count keys exactly where no key is listed twice. -/
theorem quorums_count_keys_iff :
    (∀ state command transfer,
      (∀ signatures output after config,
        Accepts (BridgePrism.redeem command transfer signatures) state output after →
        BridgePrism.Registered state config transfer.chain →
          SignedByKeys BridgePrism.hexToBytes config.guardians transfer.digest.asBytes
            (signatures.map BridgePrism.entry) config.quorum) ↔
      ∀ config, BridgePrism.Registered state config transfer.chain →
        transfer.sequence = BridgePrism.sequenceAt state (BridgePrism.seqKey transfer.chain) →
        (TokenPrism.balance state transfer.tokenId transfer.recipient).val + transfer.amount.val <
          2 ^ 128 →
        NoTwins BridgePrism.hexToBytes config.guardians transfer.digest.asBytes config.quorum) ∧
    (∀ state command feedId round value,
      (∀ signatures output after feed,
        Accepts (OraclePrism.report command feedId round value signatures) state output after →
        OraclePrism.Stored state feed feedId →
          SignedByKeys OraclePrism.decodeHex feed.reporters (reportDigest feedId round value)
            (signatures.map OraclePrism.entry) feed.quorum.toNat) ↔
      ∀ feed, OraclePrism.Stored state feed feedId → feed.round < round →
        NoTwins OraclePrism.decodeHex feed.reporters (reportDigest feedId round value)
          feed.quorum.toNat) :=
  ⟨BridgePrism.redeem_keys_iff, OraclePrism.report_keys_iff⟩

end Quorums

/-! ### One key in two spellings -/

namespace BridgePrism

attribute [local instance] SerdeJson.compact Blake3.polynomial Ed25519.keyed

/-- The key of `soloGuardian` in lower and in upper case. -/
def twinTexts : List String := [soloText, String.ofList (List.replicate 64 'A')]

/-- One signature, presented under both spellings. -/
def twinSignatures : List GuardianSignature :=
  twinTexts.map fun text => { soloSignature Hash.zero with publicKey := text }

def twinConfig : BridgeConfig :=
  { chain := .custom
    guardians := twinTexts
    quorum := 2
    admin := ⟨"alice"⟩ }

theorem twin_key : ∀ text ∈ twinTexts, hexToBytes text = some soloGuardian.publicKey := by
  decide +kernel

theorem twin_quorum :
    verifyQuorum twinConfig (soloTransfer Hash.zero).digest twinSignatures = .ok 2 := by
  apply verifyQuorum_endorsed
  · intro signature member
    obtain ⟨text, listed, rfl⟩ := List.mem_map.mp member
    exact ⟨listed, _, _, twin_key text listed, hexToBytes_hexEncode _,
      verifyBytes_signBytes soloGuardian _⟩
  · decide
  · decide

/-- Alice alone registers a quorum of two and meets it. -/
theorem one_key_meets_quorum_of_two :
    ∃ registered redeemed state after,
      Accepts (registerChain (bridgeCommand "alice" 0 (.registerChain .custom twinTexts 2)) .custom
        twinTexts 2) StateTree.empty registered state ∧
      Accepts (redeem (bridgeCommand "alice" 1 (.redeem (soloTransfer Hash.zero) twinSignatures))
        (soloTransfer Hash.zero) twinSignatures) state redeemed after ∧
      Registered state twinConfig .custom ∧
      ¬ SignedByKeys hexToBytes twinTexts (soloTransfer Hash.zero).digest.asBytes
        (twinSignatures.map entry) 2 := by
  obtain ⟨registered, first⟩ : ∃ output, Accepts (registerChain
      (bridgeCommand "alice" 0 (.registerChain .custom twinTexts 2)) .custom twinTexts 2)
      StateTree.empty output
      (StateTree.empty.putJson (BridgeConfig.configKey .custom) twinConfig) :=
    registerChain_accepted (by decide) (by decide) (StateTree.get_empty _)
  have stored : Registered (StateTree.empty.putJson (BridgeConfig.configKey .custom) twinConfig)
      twinConfig .custom := StateTree.getJson_putJson _ _ _
  obtain ⟨unused, poor⟩ := registered_only twinConfig
  have sequence : (soloTransfer Hash.zero).sequence = sequenceAt
      (StateTree.empty.putJson (BridgeConfig.configKey .custom) twinConfig) (seqKey .custom) := by
    unfold sequenceAt StateTree.getJson? StateTree.getJson
    rw [unused]
    rfl
  have added : (TokenPrism.balance
      (StateTree.empty.putJson (BridgeConfig.configKey .custom) twinConfig) Hash.zero
      ⟨"alice"⟩).checkedAdd 250 = some 250 := by
    rw [poor]
    rfl
  obtain ⟨redeemed, second⟩ := @redeem_accepted _ _
    (bridgeCommand "alice" 1 (.redeem (soloTransfer Hash.zero) twinSignatures)) _ _
    (soloTransfer Hash.zero) twinSignatures twinConfig 2 250 stored sequence twin_quorum added
  refine ⟨registered, redeemed, _, _, first, second, stored, ?_⟩
  intro signed
  obtain ⟨keys, enough, each⟩ := signed
  have one : keys ⊆ {Ed25519.publicKey soloGuardian.signingKey} := by
    intro key member
    obtain ⟨pair, _, listed, found, _⟩ := each key member
    unfold Spelling.keyOf at found
    rw [twin_key _ listed, Option.bind_some, PartyIdentity.publicKey, exactly_toList] at found
    rw [Finset.mem_singleton]
    exact (Option.some.inj found).symm
  have bound := Finset.card_le_card one
  rw [Finset.card_singleton] at bound
  omega

end BridgePrism

end Veilux
