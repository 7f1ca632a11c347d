/-
What the prisms leave alone.  Every key a prism writes starts with its own head, or with
that of the tokens it moves; so nothing apart from these is touched by a handler.
-/

import Veilux.Kernel.Spares
import Veilux.Prism.Ai
import Veilux.Prism.Bridge
import Veilux.Prism.Confidential
import Veilux.Prism.Contract
import Veilux.Prism.Dex
import Veilux.Prism.Multisig
import Veilux.Prism.Name
import Veilux.Prism.Nft
import Veilux.Prism.Oracle
import Veilux.Prism.Staking
import Veilux.Prism.Storage
import Veilux.Prism.Vesting

namespace Veilux

open PrismM
open StateTree (SameUnder sameUnder_put)

attribute [local grind ←] spares_pure spares_throw spares_get spares_bind spares_stop

/-- A head that no prism writes under. -/
structure Foreign (head : String) : Prop where
  token : Keys.Apart "token/" head
  ai : Keys.Apart "ai/" head
  bridge : Keys.Apart "bridge/" head
  confidential : Keys.Apart "confidential/" head
  contract : Keys.Apart "contract/" head
  dex : Keys.Apart "dex/" head
  gov : Keys.Apart "gov/" head
  multisig : Keys.Apart "multisig/" head
  name : Keys.Apart "name/" head
  nft : Keys.Apart "nft/" head
  oracle : Keys.Apart "oracle/" head
  staking : Keys.Apart "staking/" head
  storage : Keys.Apart "storage/" head
  vesting : Keys.Apart "vesting/" head

variable [SerdeJson] {head : String} (foreign : Foreign head)

/-! ### Tokens -/

namespace TokenPrism

include foreign

omit [SerdeJson] in
theorem spares_setBalance (id : Hash) (who : PartyId) (value : U128) :
    Spares head (setBalance id who value) := by
  refine spares_putJson foreign.token ⟨"bal/" ++ id.toHex ++ "/" ++ who.name, ?_⟩ _
  simp only [balKey, balPrefix, ← String.append_assoc]
  rfl

omit [SerdeJson] in
theorem spares_setAllowance (id : Hash) (owner spender : PartyId) (value : U128) :
    Spares head (setAllowance id owner spender value) := by
  refine spares_putJson foreign.token
    ⟨"allow/" ++ id.toHex ++ "/" ++ owner.name ++ "/" ++ spender.name, ?_⟩ _
  simp only [allowKey, allowPrefix, ← String.append_assoc]
  rfl

omit [SerdeJson] in
theorem spares_setMeta (id : Hash) (info : TokenMeta) : Spares head (setMeta id info) := by
  refine spares_putJson foreign.token ⟨"meta/" ++ id.toHex, ?_⟩ _
  simp only [metaKey, metaPrefix, ← String.append_assoc]
  rfl

omit foreign in
theorem spares_loadMeta (id : Hash) : Spares head (loadMeta id) := by
  unfold loadMeta
  grind

omit foreign [SerdeJson] in
theorem spares_addOr (text : String) (left right : U128) : Spares head (addOr text left right) := by
  unfold addOr
  grind

theorem spares_debit (id : Hash) (who : PartyId) (amount : U128) :
    Spares head (debit id who amount) := by
  unfold debit
  grind [spares_setBalance]

theorem spares_moveBalance (id : Hash) (source target : PartyId) (amount : U128) :
    Spares head (moveBalance id source target amount) := by
  unfold moveBalance
  grind [spares_debit, spares_setBalance, spares_addOr]

theorem spares_lowerSupply (id : Hash) (amount : U128) : Spares head (lowerSupply id amount) := by
  unfold lowerSupply
  grind [spares_setMeta]

theorem spares_burnFrom (id : Hash) (who : PartyId) (amount : U128) :
    Spares head (burnFrom id who amount) := by
  unfold burnFrom
  grind [spares_debit, spares_lowerSupply]

theorem spares_credit (id : Hash) (who : PartyId) (amount : U128) :
    Spares head (credit id who amount) := by
  unfold credit
  grind [spares_setBalance, spares_setMeta, spares_addOr]

/-- The end of a collected fee, where its burned part leaves the supply. -/
theorem spares_burning (id : Hash) (burned : U128) (info? : StateTree → Option TokenMeta)
    (outcome : FeeOutcome) :
    Spares head (do
      if 0 < burned then
        match info? (← get) with
        | none => pure ()
        | some info =>
            setMeta id { info with totalSupply := info.totalSupply.saturatingSub burned }
      return outcome) := by
  grind [spares_setMeta]

theorem spares_collectFee (id : Hash) (payer proposer : PartyId) (fee : U128) (burnBps : UInt16) :
    Spares head (collectFee id payer proposer fee burnBps) := by
  unfold collectFee
  refine spares_bind spares_get fun _ => spares_ite (spares_pure _) ?_
  refine spares_bind (spares_setBalance foreign _ _ _) fun _ => ?_
  refine spares_ite ?_ (spares_burning foreign id _ (tokenMeta? · id) _)
  refine spares_bind spares_get fun _ => spares_bind (spares_addOr _ _ _) fun _ => ?_
  exact spares_bind (spares_setBalance foreign _ _ _) fun _ =>
    spares_burning foreign id _ (tokenMeta? · id) _

variable [Blake3]

theorem spares_execute (command : Command) (operation : TokenCommand) :
    Spares head (execute command operation) := by
  cases operation with
  | create name symbol decimals initialSupply mintable =>
      unfold execute create
      grind [spares_setMeta, spares_setBalance]
  | transfer tokenId target amount =>
      unfold execute transfer
      grind [spares_loadMeta, spares_setBalance, spares_addOr]
  | approve tokenId spender amount =>
      unfold execute approve
      grind [spares_loadMeta, spares_setAllowance]
  | transferFrom tokenId source target amount =>
      unfold execute transferFrom
      refine spares_bind (spares_loadMeta _) fun _ => spares_bind spares_get fun _ =>
        spares_guard (spares_bind spares_get fun _ => spares_guard ?_)
      grind [spares_loadMeta, spares_setBalance, spares_setAllowance, spares_addOr]
  | mint tokenId target amount =>
      unfold execute mint
      grind [spares_loadMeta, spares_setBalance, spares_setMeta, spares_addOr]
  | burn tokenId amount =>
      unfold execute burn
      grind [spares_loadMeta, spares_setBalance, spares_setMeta]

theorem spares : prism.Spares head := by
  intro command
  change Spares head (handle command)
  unfold handle
  grind [spares_execute]

end TokenPrism

variable [Blake3]

/-! ### Trading and vesting -/

namespace DexPrism

omit [SerdeJson] [Blake3] in
theorem spares_divide (left right : U128) : Spares head (U128.divide left right) := by
  unfold U128.divide
  grind

omit [SerdeJson] [Blake3] in
theorem spares_quoteOut (reserveIn reserveOut amountIn : U128) :
    Spares head (quoteOut reserveIn reserveOut amountIn) := by
  unfold quoteOut
  grind [spares_divide]

omit [Blake3] in
theorem spares_load (id : Hash) : Spares head (load id) := by
  unfold load
  grind

omit [SerdeJson] [Blake3] in
theorem spares_minted (pool : Pool) (amountA amountB : U128) :
    Spares head (minted pool amountA amountB) := by
  unfold minted
  grind [spares_divide]

include foreign

omit [SerdeJson] [Blake3] in
theorem spares_save (pool : Pool) : Spares head (save pool) := by
  refine spares_putJson foreign.dex ⟨"pool/" ++ pool.id.toHex, ?_⟩ _
  simp only [key, poolPrefix, ← String.append_assoc]
  rfl

theorem spares : prism.Spares head := by
  intro command
  change Spares head (handle command)
  unfold handle
  split
  · exact spares_throw _
  · rename_i operation _
    cases operation with
    | createPool tokenA tokenB =>
        unfold execute createPool
        grind [spares_save]
    | addLiquidity pool amountA amountB =>
        unfold execute addLiquidity
        refine spares_bind (spares_load _) fun _ => spares_guard ?_
        grind [spares_save, spares_minted, TokenPrism.spares_debit]
    | removeLiquidity pool shares =>
        unfold execute removeLiquidity
        refine spares_bind (spares_load _) fun _ => spares_guard ?_
        grind [spares_save, spares_divide, TokenPrism.spares_credit]
    | swap pool tokenIn amountIn minOut =>
        unfold execute swap
        refine spares_bind (spares_load _) fun _ => spares_guard ?_
        refine spares_ite ?_ (spares_ite ?_ (spares_stop _ _))
        all_goals
          refine spares_bind (spares_pure _) fun _ => spares_bind (spares_quoteOut _ _ _) fun _ =>
            spares_guard (spares_bind (TokenPrism.spares_debit foreign _ _ _) fun _ => ?_)
          refine spares_bind (TokenPrism.spares_credit foreign _ _ _) fun _ => ?_
          exact spares_bind (spares_save foreign _) fun _ => spares_pure _

end DexPrism

namespace VestingPrism

omit [Blake3] in
theorem spares_load (id : Hash) : Spares head (load id) := by
  unfold load
  grind

include foreign

omit [SerdeJson] [Blake3] in
theorem spares_put (id : Hash) (schedule : Schedule) :
    Spares head (modify fun state => state.putJson (key id) schedule) := by
  refine spares_putJson foreign.vesting ⟨"sched/" ++ id.toHex, ?_⟩ _
  simp only [key, schedPrefix, ← String.append_assoc]
  rfl

theorem spares : prism.Spares head := by
  intro command
  change Spares head (handle command)
  unfold handle
  split
  · exact spares_throw _
  · rename_i operation _
    cases operation with
    | create tokenId beneficiary total start cliff duration revocable =>
        unfold execute create
        refine spares_guard (spares_guard (spares_bind spares_get fun _ => spares_guard ?_))
        refine spares_bind (TokenPrism.spares_debit foreign _ _ _) fun _ => ?_
        exact spares_bind (spares_put foreign _ _) fun _ => spares_pure _
    | release schedule =>
        unfold execute release
        refine spares_bind (spares_load _) fun _ => spares_guard ?_
        refine spares_bind spares_get fun _ => spares_guard ?_
        refine spares_bind (TokenPrism.spares_credit foreign _ _ _) fun _ => ?_
        exact spares_bind (spares_put foreign _ _) fun _ => spares_pure _
    | revoke schedule =>
        unfold execute revoke
        refine spares_bind (spares_load _) fun _ => spares_guard (spares_guard (spares_guard ?_))
        have refunding (info : Schedule) (next : Schedule) (refund : U128) (output : PrismOutput) :
            Spares head (do
              if 0 < refund then TokenPrism.credit info.tokenId info.funder refund
              modify fun state => state.putJson (key schedule) next
              return output) := by
          refine spares_ite (spares_bind (TokenPrism.spares_credit foreign _ _ _) fun _ => ?_) ?_
          · exact spares_bind (spares_put foreign _ _) fun _ => spares_pure _
          · exact spares_bind (spares_put foreign _ _) fun _ => spares_pure _
        refine spares_bind spares_get fun _ => spares_ite ?_ (refunding _ _ _ _)
        exact spares_bind (TokenPrism.spares_credit foreign _ _ _) fun _ => refunding _ _ _ _

end VestingPrism

/-! ### Confidential notes and contracts -/

namespace ConfidentialPrism

omit [Blake3] in
theorem spares_loadToken (id : Hash) : Spares head (loadToken id) := by
  unfold loadToken
  grind

include foreign

omit [SerdeJson] [Blake3] in
theorem spares_putNote (commitment : Hash) (entry : NoteState) :
    Spares head (putNote commitment entry) := by
  refine spares_putJson foreign.confidential ⟨"note/" ++ commitment.toHex, ?_⟩ _
  simp only [noteKey, notePrefix, ← String.append_assoc]
  rfl

omit [SerdeJson] [Blake3] in
theorem spares_putNotes (tokenId : Hash) (commitments : List Hash) :
    Spares head (putNotes tokenId commitments) := by
  induction commitments with
  | nil => exact spares_pure _
  | cons commitment rest ih => exact spares_bind (spares_putNote foreign _ _) fun _ => ih

theorem spares : prism.Spares head := by
  intro command
  change Spares head (handle command)
  unfold handle
  split
  · exact spares_throw _
  · rename_i operation _
    cases operation with
    | createToken name symbol =>
        unfold execute createToken
        refine spares_bind spares_get fun _ => spares_guard ?_
        refine spares_bind (spares_putJson foreign.confidential
          ⟨"token/" ++ (createdId command.submitter symbol).toHex, ?_⟩ _) fun _ => spares_pure _
        simp only [tokenKey, tokenPrefix, ← String.append_assoc]
        rfl
    | mint tokenId opening =>
        unfold execute mint
        refine spares_bind (spares_loadToken _) fun _ => spares_guard (spares_guard ?_)
        grind [spares_putNote]
    | transfer tokenId input outputs =>
        unfold execute transfer
        refine spares_bind (spares_loadToken _) fun _ => spares_guard (spares_guard ?_)
        refine spares_bind spares_get fun _ => ?_
        split
        · exact spares_throw _
        · refine spares_guard ?_
          split
          · exact spares_throw _
          · refine spares_guard ?_
            grind [spares_putNote, spares_putNotes]

end ConfidentialPrism

namespace ContractPrism

include foreign

theorem spares (order : IterationOrder) : (prism order).Spares head := by
  intro command
  change Spares head (handle order command)
  unfold handle
  split
  · exact spares_throw _
  · rename_i code _
    unfold deploy
    have written (address : Hash) (info : ContractMeta) :
        Spares head (modify fun state => state.putJson (codeKey address) info) := by
      refine spares_putJson foreign.contract ⟨"code/" ++ address.toHex, ?_⟩ _
      simp only [codeKey, codePrefix, ← String.append_assoc]
      rfl
    exact spares_guard (spares_bind (written _ _) fun _ => spares_pure _)
  · rename_i address args value gasLimit _
    unfold call
    have written (listing : Listing) :
        Spares head (modify fun state => state.putJson (storeKey address) listing) := by
      refine spares_putJson foreign.contract ⟨"store/" ++ address.toHex, ?_⟩ _
      simp only [storeKey, storePrefix, ← String.append_assoc]
      rfl
    refine spares_bind spares_get fun _ => ?_
    split
    · exact spares_throw _
    · exact spares_throw _
    · refine spares_bind spares_get fun _ => ?_
      split
      · exact spares_bind (written _) fun _ => spares_pure _
      · exact spares_pure _

end ContractPrism

/-! ### Blobs, models and unique tokens -/

namespace StoragePrism

include foreign

omit [SerdeJson] [Blake3] in
theorem spares_putPin (cid : Hash) (pin : PinRecord) :
    Spares head (modify fun state => state.putJson (pinKey cid) pin) := by
  refine spares_putJson foreign.storage ⟨"pin/" ++ cid.toHex, ?_⟩ _
  simp only [pinKey, pinPrefix, ← String.append_assoc]
  rfl

omit [SerdeJson] [Blake3] in
theorem spares_putBlob (cid : Hash) (data : List UInt8) :
    Spares head (modify fun state => state.put (blobKey cid) data) := by
  have key : blobKey cid = "storage/" ++ ("blob/" ++ cid.toHex) := by
    simp only [blobKey, blobPrefix, ← String.append_assoc]
    rfl
  rw [key]
  exact spares_modify fun state => sameUnder_put foreign.storage state _ data

theorem spares : prism.Spares head := by
  intro command
  change Spares head (handle command)
  unfold handle
  split
  · exact spares_throw _
  · rename_i operation _
    cases operation with
    | put key data =>
        unfold execute put
        have pinned (cid : Hash) (next : StateTree → PinRecord) (output : PrismOutput) :
            Spares head (do
              let state ← get
              modify fun stored => stored.putJson (pinKey cid) (next state)
              return output) :=
          spares_bind spares_get fun _ => spares_bind (spares_putPin foreign _ _) fun _ =>
            spares_pure _
        refine spares_guard (spares_bind spares_get fun _ => ?_)
        refine spares_ite (spares_bind (spares_putBlob foreign _ _) fun _ => ?_) ?_
        · exact pinned _ _ _
        · exact pinned _ _ _
    | op operation =>
        cases operation with
        | pin cid =>
            unfold execute pin
            refine spares_bind spares_get fun _ => spares_guard (spares_bind spares_get fun _ => ?_)
            exact spares_bind (spares_putPin foreign _ _) fun _ => spares_pure _
        | unpin cid =>
            unfold execute unpin
            refine spares_bind spares_get fun _ => spares_guard (spares_ite ?_ ?_)
            · refine spares_bind (spares_remove foreign.storage ⟨"blob/" ++ cid.toHex, ?_⟩) fun _ => ?_
              · simp only [blobKey, blobPrefix, ← String.append_assoc]
                rfl
              · refine spares_bind (spares_remove foreign.storage ⟨"pin/" ++ cid.toHex, ?_⟩)
                  fun _ => spares_pure _
                simp only [pinKey, pinPrefix, ← String.append_assoc]
                rfl
            · exact spares_bind (spares_putPin foreign _ _) fun _ => spares_pure _

end StoragePrism

namespace AiPrism

include foreign

theorem spares [Inference] : prism.Spares head := by
  intro command
  change Spares head (handle command)
  unfold handle
  split
  · exact spares_throw _
  · rename_i operation _
    cases operation with
    | register name kind weightsHash version dimensions =>
        unfold execute register
        have written (id : Hash) (record : ModelRecord) :
            Spares head (modify fun state => state.putJson (modelKey id) record) := by
          refine spares_putJson foreign.ai ⟨"models/" ++ id.toHex, ?_⟩ _
          simp only [modelKey, modelPrefix, ← String.append_assoc]
          rfl
        exact spares_bind (written _ _) fun _ => spares_pure _
    | infer modelId input =>
        unfold execute infer loadModel
        grind

end AiPrism

namespace NftPrism

omit [Blake3] in
theorem spares_loadCollection (id : Hash) : Spares head (loadCollection id) := by
  unfold loadCollection
  grind

omit [Blake3] in
theorem spares_requireOwner (id : Hash) (index : UInt64) : Spares head (requireOwner id index) := by
  unfold requireOwner
  grind

/-- The keys of one token. -/
inductive TokenKey (id : Hash) (index : UInt64) : String → Prop where
  | owner : TokenKey id index (ownerKey id index)
  | info : TokenKey id index (metaKey id index)
  | approve : TokenKey id index (approveKey id index)

omit [SerdeJson] [Blake3] in
theorem TokenKey.under {id : Hash} {index : UInt64} {key : String}
    (token : TokenKey id index key) : ∃ rest, key = "nft/" ++ rest := by
  cases token with
  | owner =>
      refine ⟨"owner/" ++ id.toHex ++ "/" ++ Nat.repr index.toNat, ?_⟩
      simp only [ownerKey, indexKey, ownerPrefix, ← String.append_assoc]
      rfl
  | info =>
      refine ⟨"token/" ++ id.toHex ++ "/" ++ Nat.repr index.toNat, ?_⟩
      simp only [metaKey, indexKey, metaPrefix, ← String.append_assoc]
      rfl
  | approve =>
      refine ⟨"approve/" ++ id.toHex ++ "/" ++ Nat.repr index.toNat, ?_⟩
      simp only [approveKey, indexKey, approvePrefix, ← String.append_assoc]
      rfl

include foreign

omit [SerdeJson] [Blake3] in
theorem spares_putColl (id : Hash) (coll : Collection) :
    Spares head (modify fun state => state.putJson (collKey id) coll) := by
  refine spares_putJson foreign.nft ⟨"coll/" ++ id.toHex, ?_⟩ _
  simp only [collKey, collPrefix, ← String.append_assoc]
  rfl

theorem spares : prism.Spares head := by
  intro command
  change Spares head (handle command)
  unfold handle
  split
  · exact spares_throw _
  · rename_i operation _
    cases operation with
    | createCollection name symbol maxSupply =>
        refine spares_bind spares_get fun _ => spares_guard ?_
        exact spares_bind (spares_putColl foreign _ _) fun _ => spares_pure _
    | mint collectionId target metadataUri contentHash =>
        refine spares_bind (spares_loadCollection _) fun coll => spares_guard (spares_guard ?_)
        refine spares_bind (spares_putJson foreign.nft
          (@TokenKey.info collectionId coll.minted).under _) fun _ => ?_
        refine spares_bind (spares_putJson foreign.nft TokenKey.owner.under _) fun _ => ?_
        exact spares_bind (spares_putColl foreign _ _) fun _ => spares_pure _
    | transfer collectionId tokenIndex target =>
        refine spares_bind (spares_requireOwner _ _) fun _ => spares_bind spares_get fun _ =>
          spares_guard ?_
        refine spares_bind (spares_putJson foreign.nft TokenKey.owner.under _) fun _ => ?_
        exact spares_bind (spares_remove foreign.nft TokenKey.approve.under) fun _ => spares_pure _
    | approve collectionId tokenIndex spender =>
        refine spares_bind (spares_requireOwner _ _) fun _ => spares_guard ?_
        exact spares_bind (spares_putJson foreign.nft TokenKey.approve.under _) fun _ => spares_pure _
    | burn collectionId tokenIndex =>
        refine spares_bind (spares_requireOwner _ _) fun _ => spares_guard ?_
        refine spares_bind (spares_remove foreign.nft TokenKey.owner.under) fun _ => ?_
        refine spares_bind (spares_remove foreign.nft TokenKey.info.under) fun _ => ?_
        exact spares_bind (spares_remove foreign.nft TokenKey.approve.under) fun _ => spares_pure _

end NftPrism

/-! ### Bridges and oracles -/

variable [Ed25519]

namespace BridgePrism

omit [Blake3] [Ed25519] in
theorem spares_loadConfig (chain : ForeignChain) : Spares head (loadConfig chain) := by
  unfold loadConfig
  grind

include foreign

theorem spares : prism.Spares head := by
  intro command
  change Spares head (handle command)
  unfold handle
  split
  · exact spares_throw _
  · rename_i operation _
    cases operation with
    | registerChain chain guardians quorum =>
        unfold execute registerChain
        have written (config : BridgeConfig) : Spares head (modify fun state =>
            state.putJson (BridgeConfig.configKey chain) config) :=
          spares_putJson foreign.bridge ⟨"config/" ++ Nat.repr chain.asU16, rfl⟩ _
        refine spares_guard (spares_bind spares_get fun _ => ?_)
        split
        · exact spares_guard (spares_bind (written _) fun _ => spares_pure _)
        · exact spares_bind (written _) fun _ => spares_pure _
    | send chain recipient tokenId amount =>
        unfold execute send
        refine spares_bind (spares_loadConfig _) fun _ => spares_bind spares_get fun _ =>
          spares_guard ?_
        refine spares_bind (TokenPrism.spares_setBalance foreign _ _ _) fun _ => ?_
        refine spares_bind spares_get fun _ => ?_
        exact spares_bind (spares_putJson foreign.bridge
          ⟨"outseq/" ++ Nat.repr chain.asU16, rfl⟩ _) fun _ => spares_pure _
    | redeem transfer signatures =>
        unfold execute redeem
        refine spares_bind (spares_loadConfig _) fun _ => spares_bind spares_get fun _ =>
          spares_guard ?_
        split
        · exact spares_throw _
        · refine spares_bind spares_get fun _ => ?_
          refine spares_bind (TokenPrism.spares_addOr _ _ _) fun _ => ?_
          refine spares_bind (TokenPrism.spares_setBalance foreign _ _ _) fun _ => ?_
          exact spares_bind (spares_putJson foreign.bridge
            ⟨"seq/" ++ Nat.repr transfer.chain.asU16, rfl⟩ _) fun _ => spares_pure _

end BridgePrism

namespace OraclePrism

omit [Blake3] [Ed25519] in
theorem spares_loadFeed (id : Hash) : Spares head (loadFeed id) := by
  unfold loadFeed
  grind

include foreign

theorem spares : prism.Spares head := by
  intro command
  change Spares head (handle command)
  have feed (id : Hash) (value : Feed) :
      Spares head (modify fun state => state.putJson (feedKey id) value) := by
    refine spares_putJson foreign.oracle ⟨"feed/" ++ id.toHex, ?_⟩ _
    simp only [feedKey, feedPrefix, ← String.append_assoc]
    rfl
  unfold handle
  split
  · exact spares_throw _
  · rename_i operation _
    cases operation with
    | registerFeed name reporters quorum =>
        unfold execute registerFeed
        refine spares_guard (spares_bind spares_get fun _ => spares_guard ?_)
        exact spares_bind (feed _ _) fun _ => spares_pure _
    | report feedId round value signatures =>
        unfold execute report
        refine spares_bind (spares_loadFeed _) fun _ => spares_guard (spares_guard ?_)
        refine spares_bind (feed _ _) fun _ => ?_
        refine spares_bind (spares_putJson foreign.oracle ⟨"value/" ++ feedId.toHex, ?_⟩ _)
          fun _ => spares_pure _
        simp only [valueKey, valuePrefix, ← String.append_assoc]
        rfl

end OraclePrism

/-! ### Staking and governance -/

namespace StakingPrism

open TokenPrism (burnFrom moveBalance nativeTokenId spares_burnFrom spares_moveBalance)

omit [Blake3] [Ed25519] in
theorem spares_loadProposal (id : Hash) : Spares head (loadProposal id) := by
  unfold loadProposal
  grind

omit [SerdeJson] [Blake3] [Ed25519] in
theorem spares_decodeHex (text error : String) : Spares head (decodeHex text error) := by
  unfold decodeHex
  grind

omit [SerdeJson] [Blake3] in
theorem spares_requireSignature (publicKey message signature : List UInt8) (error : String) :
    Spares head (requireSignature publicKey message signature error) := by
  unfold requireSignature
  grind

omit [SerdeJson] [Blake3] in
theorem spares_verifyStmt (envelope : PrivateEnvelope) (statement : AttestationStatement) :
    Spares head (verifyStmt envelope statement) := by
  unfold verifyStmt
  refine spares_guard (spares_bind (spares_decodeHex _ _) fun _ => ?_)
  grind [spares_decodeHex, spares_requireSignature]

omit [SerdeJson] [Blake3] in
theorem spares_checkMajority (envelope : PrivateEnvelope) (offender : PartyId)
    (statements : List AttestationStatement) (seen : List PartyId) (canonical : Option String) :
    Spares head (checkMajority envelope offender statements seen canonical) := by
  induction statements generalizing seen canonical with
  | nil => exact spares_pure _
  | cons statement rest ih =>
      unfold checkMajority
      refine spares_bind (spares_verifyStmt _ _) fun _ => spares_guard (spares_guard ?_)
      cases canonical with
      | none => exact ih _ _
      | some root => exact spares_guard (ih _ _)

include foreign

omit [SerdeJson] [Blake3] [Ed25519] in
theorem spares_writeU128 {key : String} (under : ∃ rest, key = "staking/" ++ rest) (value : U128) :
    Spares head (writeU128 key value) :=
  spares_putJson foreign.staking under _

omit [Blake3] [Ed25519] in
theorem spares_settleRewardDebt (who : PartyId) (power : U128) :
    Spares head (settleRewardDebt who power) := by
  refine spares_bind spares_get fun _ => spares_writeU128 foreign ⟨"reward_debt/" ++ who.name, ?_⟩ _
  simp only [rewardDebtKey, rewardDebtPrefix, ← String.append_assoc]
  rfl

omit [SerdeJson] [Blake3] [Ed25519] in
theorem spares_saveStake (record : StakeRecord) : Spares head (saveStake record) := by
  refine spares_putJson foreign.staking ⟨"stake/" ++ record.owner.name, ?_⟩ _
  simp only [stakeKey, stakePrefix, ← String.append_assoc]
  rfl

omit [SerdeJson] [Blake3] [Ed25519] in
theorem spares_setDelegation (delegator validator : PartyId) (value : U128) :
    Spares head (setDelegation delegator validator value) := by
  refine spares_writeU128 foreign
    ⟨"delegation/" ++ delegator.name ++ "/" ++ validator.name, ?_⟩ _
  simp only [delegKey, delegPrefix, ← String.append_assoc]
  rfl

omit [Blake3] [Ed25519] in
theorem spares_addTotalStake (delta : Int) : Spares head (addTotalStake delta) :=
  spares_bind spares_get fun _ => spares_writeU128 foreign ⟨"total_stake", rfl⟩ _

omit [SerdeJson] [Blake3] [Ed25519] in
theorem spares_putProposal (id : Hash) (proposal : Proposal) :
    Spares head (modify fun state => state.putJson (proposalKey id) proposal) := by
  refine spares_putJson foreign.gov ⟨"proposal/" ++ id.toHex, ?_⟩ _
  simp only [proposalKey, proposalPrefix, ← String.append_assoc]
  rfl

omit [Ed25519] in
theorem spares_harvestPending (who : PartyId) : Spares head (harvestPending who) := by
  unfold harvestPending
  grind [spares_moveBalance]

omit [Ed25519] in
theorem spares_updateLock (who : PartyId) (delta : Int) : Spares head (updateLock who delta) := by
  refine spares_bind (spares_harvestPending foreign _) fun _ => spares_bind spares_get fun _ => ?_
  refine spares_bind (spares_writeU128 foreign ⟨"locked/" ++ who.name, ?_⟩ _) fun _ => ?_
  · simp only [lockedKey, lockedPrefix, ← String.append_assoc]
    rfl
  · refine spares_bind (spares_addTotalStake foreign _) fun _ => ?_
    exact spares_settleRewardDebt foreign _ _

omit [Ed25519] in
theorem spares_punish (command : Command) (offence : Hash) (offender : PartyId) :
    Spares head (punish command offence offender) := by
  have marked : Spares head (modify fun state => state.putJson (slashKey offence) true) := by
    refine spares_putJson foreign.staking ⟨"slashed/" ++ offence.toHex, ?_⟩ _
    simp only [slashKey, slashPrefix, ← String.append_assoc]
    rfl
  refine spares_bind spares_get fun _ => spares_guard (spares_bind spares_get fun _ => ?_)
  refine spares_ite ?_ (spares_bind marked fun _ => spares_pure _)
  refine spares_bind (spares_tryCatch (spares_burnFrom foreign _ _ _) fun _ => spares_throw _)
    fun _ => ?_
  refine spares_bind (spares_saveStake foreign _) fun _ => ?_
  refine spares_bind (spares_updateLock foreign _ _) fun _ => ?_
  exact spares_bind marked fun _ => spares_pure _

theorem spares_execute (command : Command) (height : UInt64) (operation : StakingCommand) :
    Spares head (execute command height operation) := by
  have locking (who : PartyId) (delta : Int) (output : PrismOutput) :
      Spares head (do
        updateLock who delta
        return output) :=
    spares_bind (spares_updateLock foreign _ _) fun _ => spares_pure _
  cases operation with
  | stake amount =>
      refine spares_guard (spares_bind (spares_moveBalance foreign _ _ _ _) fun _ => ?_)
      refine spares_bind spares_get fun _ => ?_
      exact spares_bind (spares_saveStake foreign _) fun _ => locking _ _ _
  | unstake amount =>
      refine spares_bind spares_get fun _ => spares_guard ?_
      refine spares_bind (spares_moveBalance foreign _ _ _ _) fun _ => ?_
      exact spares_bind (spares_saveStake foreign _) fun _ => locking _ _ _
  | delegate validator amount =>
      refine spares_guard (spares_bind (spares_moveBalance foreign _ _ _ _) fun _ => ?_)
      refine spares_bind spares_get fun _ => ?_
      refine spares_bind (spares_setDelegation foreign _ _ _) fun _ => ?_
      refine spares_bind spares_get fun _ => ?_
      exact spares_bind (spares_saveStake foreign _) fun _ => locking _ _ _
  | undelegate validator amount =>
      refine spares_bind spares_get fun _ => spares_guard ?_
      refine spares_bind (spares_moveBalance foreign _ _ _ _) fun _ => ?_
      refine spares_bind (spares_setDelegation foreign _ _ _) fun _ => ?_
      refine spares_bind spares_get fun _ => ?_
      exact spares_bind (spares_saveStake foreign _) fun _ => locking _ _ _
  | propose title description votingPeriod =>
      refine spares_bind spares_get fun _ => spares_guard ?_
      refine spares_bind spares_get fun _ => spares_guard ?_
      exact spares_bind (spares_putProposal foreign _ _) fun _ => spares_pure _
  | vote proposalId approve =>
      refine spares_bind (spares_loadProposal _) fun _ => spares_guard (spares_guard ?_)
      refine spares_bind spares_get fun _ => spares_guard ?_
      refine spares_bind spares_get fun _ => spares_guard ?_
      refine spares_bind (spares_putJson foreign.gov
        ⟨"vote/" ++ proposalId.toHex ++ "/" ++ command.submitter.name, ?_⟩ _) fun _ => ?_
      · simp only [voteKey, votePrefix, ← String.append_assoc]
        rfl
      · exact spares_bind (spares_putProposal foreign _ _) fun _ => spares_pure _
  | finalize proposalId =>
      refine spares_bind (spares_loadProposal _) fun _ => spares_guard (spares_guard ?_)
      exact spares_bind (spares_putProposal foreign _ _) fun _ => spares_pure _
  | slash proof =>
      refine spares_bind (spares_decodeHex _ _) fun _ => ?_
      refine spares_bind (spares_decodeHex _ _) fun _ => ?_
      refine spares_bind (spares_decodeHex _ _) fun _ => ?_
      refine spares_bind (spares_decodeHex _ _) fun _ => ?_
      refine spares_bind (spares_decodeHex _ _) fun _ => spares_guard ?_
      refine spares_bind (spares_requireSignature _ _ _ _) fun _ => ?_
      refine spares_bind (spares_requireSignature _ _ _ _) fun _ => ?_
      exact spares_punish foreign _ _ _
  | slashQuorum proof =>
      refine spares_guard (spares_guard (spares_bind (spares_verifyStmt _ _) fun _ => ?_))
      refine spares_bind (spares_checkMajority _ _ _ _ _) fun canonical => ?_
      cases canonical with
      | none => exact spares_throw _
      | some root => exact spares_guard (spares_guard (spares_punish foreign _ _ _))
  | fundRewards amount =>
      refine spares_guard (spares_bind spares_get fun _ => spares_guard ?_)
      refine spares_bind (spares_moveBalance foreign _ _ _ _) fun _ => ?_
      refine spares_bind spares_get fun _ => ?_
      exact spares_bind (spares_writeU128 foreign ⟨"reward_acc", rfl⟩ _) fun _ => spares_pure _
  | claimRewards =>
      refine spares_bind (spares_harvestPending foreign _) fun _ => spares_bind spares_get fun _ => ?_
      exact spares_bind (spares_settleRewardDebt foreign _ _) fun _ => spares_pure _

theorem spares : prism.Spares head := by
  intro command
  change Spares head (handle command)
  unfold handle
  dsimp only
  split
  · exact spares_throw _
  · exact spares_execute foreign _ _ _

end StakingPrism

/-! ### Names and joint accounts -/

namespace NamePrism

omit [SerdeJson] [Blake3] [Ed25519] in
theorem spares_normalized (raw : String) : Spares head (normalized raw) := by
  unfold normalized
  split
  · exact spares_throw _
  · exact spares_pure _

omit [Blake3] [Ed25519] in
theorem spares_load (name : String) : Spares head (load name) := by
  unfold load
  grind

omit [Blake3] [Ed25519] in
theorem spares_loadRegistered (name : String) : Spares head (loadRegistered name) := by
  unfold loadRegistered load
  grind

omit [SerdeJson] [Blake3] [Ed25519] in
theorem spares_requireOwner (record : NameRecord) (caller : PartyId) (now : UInt64) :
    Spares head (requireOwner record caller now) := by
  unfold requireOwner
  grind

omit [SerdeJson] [Blake3] [Ed25519] in
theorem recKey_under (name : String) : ∃ rest, recKey name = "name/" ++ rest := by
  refine ⟨"rec/" ++ name, ?_⟩
  simp only [recKey, recPrefix, ← String.append_assoc]
  rfl

omit [SerdeJson] [Blake3] [Ed25519] in
theorem revKey_under (target : PartyId) : ∃ rest, revKey target = "name/" ++ rest := by
  refine ⟨"rev/" ++ target.name, ?_⟩
  simp only [revKey, revPrefix, ← String.append_assoc]
  rfl

include foreign

omit [SerdeJson] [Blake3] [Ed25519] in
theorem spares_store (record : NameRecord) : Spares head (store record) :=
  spares_putJson foreign.name (recKey_under _) _

omit [SerdeJson] [Blake3] [Ed25519] in
theorem spares_setReverse (target : Option PartyId) (name : String) :
    Spares head (setReverse target name) := by
  cases target with
  | none => exact spares_pure _
  | some target => exact spares_putJson foreign.name (revKey_under _) _

omit [Blake3] [Ed25519] in
theorem spares_clearReverse (target : Option PartyId) (name : String) :
    Spares head (clearReverse target name) := by
  cases target with
  | none => exact spares_pure _
  | some target =>
      refine spares_bind spares_get fun _ => spares_ite ?_ (spares_pure _)
      exact spares_remove foreign.name (revKey_under _)

omit [Ed25519] in
theorem spares_execute (command : Command) (now : UInt64) (operation : NameCommand) :
    Spares head (execute command now operation) := by
  cases operation with
  | register raw duration target =>
      refine spares_bind (spares_normalized _) fun name => spares_bind (spares_load _) fun held => ?_
      have rest : Spares head (do
          store
            { name := name
              owner := command.submitter
              target := target
              registeredAt := now
              expiresAt := if duration = 0 then 0 else later now duration
              records := ∅ }
          setReverse target name
          return PrismOutput.single (event command (.registered name command.submitter
            (if duration = 0 then 0 else later now duration))) 5000) :=
        spares_bind (spares_store foreign _) fun _ =>
          spares_bind (spares_setReverse foreign _ _) fun _ => spares_pure _
      cases held with
      | none => exact rest
      | some existing =>
          exact spares_guard (spares_bind (spares_clearReverse foreign _ _) fun _ => rest)
  | renew raw duration =>
      refine spares_bind (spares_normalized _) fun name =>
        spares_bind (spares_loadRegistered _) fun record => spares_guard ?_
      exact spares_bind (spares_store foreign _) fun _ => spares_pure _
  | transfer raw target =>
      refine spares_bind (spares_normalized _) fun name =>
        spares_bind (spares_loadRegistered _) fun record =>
          spares_bind (spares_requireOwner _ _ _) fun _ => ?_
      exact spares_bind (spares_store foreign _) fun _ => spares_pure _
  | setTarget raw target =>
      refine spares_bind (spares_normalized _) fun name =>
        spares_bind (spares_loadRegistered _) fun record =>
          spares_bind (spares_requireOwner _ _ _) fun _ => ?_
      refine spares_bind (spares_clearReverse foreign _ _) fun _ =>
        spares_bind (spares_store foreign _) fun _ => ?_
      exact spares_bind (spares_setReverse foreign _ _) fun _ => spares_pure _
  | setRecord raw key value =>
      refine spares_bind (spares_normalized _) fun name => spares_guard (spares_guard ?_)
      refine spares_bind (spares_loadRegistered _) fun record =>
        spares_bind (spares_requireOwner _ _ _) fun _ => spares_guard ?_
      exact spares_bind (spares_store foreign _) fun _ => spares_pure _
  | clearRecord raw key =>
      refine spares_bind (spares_normalized _) fun name =>
        spares_bind (spares_loadRegistered _) fun record =>
          spares_bind (spares_requireOwner _ _ _) fun _ => ?_
      exact spares_bind (spares_store foreign _) fun _ => spares_pure _
  | release raw =>
      refine spares_bind (spares_normalized _) fun name =>
        spares_bind (spares_loadRegistered _) fun record => spares_guard ?_
      refine spares_bind (spares_clearReverse foreign _ _) fun _ => ?_
      exact spares_bind (spares_remove foreign.name (recKey_under _)) fun _ => spares_pure _

omit [Ed25519] in
theorem spares : prism.Spares head := by
  intro command
  change Spares head (handle command)
  unfold handle
  split
  · exact spares_throw _
  · exact spares_bind spares_get fun _ => spares_execute foreign _ _ _

end NamePrism

namespace MultisigPrism

omit [Blake3] [Ed25519] in
theorem spares_loadAccount (id : Hash) : Spares head (loadAccount id) := by
  unfold loadAccount
  grind

omit [Blake3] [Ed25519] in
theorem spares_loadTx (account : Hash) (seq : UInt64) : Spares head (loadTx account seq) := by
  unfold loadTx
  grind

omit [Blake3] [Ed25519] in
theorem spares_loadOwned (caller : PartyId) (id : Hash) : Spares head (loadOwned caller id) := by
  unfold loadOwned loadAccount
  grind

include foreign

omit [SerdeJson] [Blake3] [Ed25519] in
theorem spares_putAccount (id : Hash) (account : MultisigAccount) :
    Spares head (modify fun state => state.putJson (accKey id) account) := by
  refine spares_putJson foreign.multisig ⟨"acc/" ++ id.toHex, ?_⟩ _
  simp only [accKey, accPrefix, ← String.append_assoc]
  rfl

omit [SerdeJson] [Blake3] [Ed25519] in
theorem spares_putTx (account : Hash) (seq : UInt64) (tx : PendingTx) :
    Spares head (modify fun state => state.putJson (txKey account seq) tx) := by
  refine spares_putJson foreign.multisig
    ⟨"tx/" ++ account.toHex ++ "/" ++ Nat.repr seq.toNat, ?_⟩ _
  simp only [txKey, txPrefix, ← String.append_assoc]
  rfl

omit [Ed25519] in
theorem spares : prism.Spares head := by
  intro command
  change Spares head (handle command)
  unfold handle
  split
  · exact spares_throw _
  · rename_i operation _
    cases operation with
    | createAccount owners threshold =>
        refine spares_guard (spares_guard (spares_bind spares_get fun _ => spares_guard ?_))
        exact spares_bind (spares_putAccount foreign _ _) fun _ => spares_pure _
    | propose account inner =>
        refine spares_bind (spares_loadOwned _ _) fun _ =>
          spares_bind (spares_putAccount foreign _ _) fun _ => ?_
        exact spares_bind (spares_putTx foreign _ _ _) fun _ => spares_pure _
    | confirm account seq =>
        refine spares_bind (spares_loadOwned _ _) fun _ => spares_bind (spares_loadTx _ _) fun _ =>
          spares_guard ?_
        exact spares_bind (spares_putTx foreign _ _ _) fun _ => spares_pure _
    | revoke account seq =>
        refine spares_bind (spares_loadOwned _ _) fun _ => spares_bind (spares_loadTx _ _) fun _ =>
          spares_guard ?_
        exact spares_bind (spares_putTx foreign _ _ _) fun _ => spares_pure _

end MultisigPrism

/-! ### The installed prisms -/

/-- The cascade that `main` builds. -/
def Cascade.shipped [Inference] (order : IterationOrder) : Cascade :=
  ((((((((((((Cascade.empty.install AiPrism.prism).install StoragePrism.prism).install
    TokenPrism.prism).install NftPrism.prism).install (ContractPrism.prism order)).install
    BridgePrism.prism).install StakingPrism.prism).install OraclePrism.prism).install
    ConfidentialPrism.prism).install NamePrism.prism).install MultisigPrism.prism).install
    VestingPrism.prism).install DexPrism.prism

theorem Cascade.shipped_spares [Inference] (foreign : Foreign head) (order : IterationOrder) :
    (Cascade.shipped order).Spares head := by
  unfold shipped
  refine Spares.install ?_ (DexPrism.spares foreign)
  refine Spares.install ?_ (VestingPrism.spares foreign)
  refine Spares.install ?_ (MultisigPrism.spares foreign)
  refine Spares.install ?_ (NamePrism.spares foreign)
  refine Spares.install ?_ (ConfidentialPrism.spares foreign)
  refine Spares.install ?_ (OraclePrism.spares foreign)
  refine Spares.install ?_ (StakingPrism.spares foreign)
  refine Spares.install ?_ (BridgePrism.spares foreign)
  refine Spares.install ?_ (ContractPrism.spares foreign order)
  refine Spares.install ?_ (NftPrism.spares foreign)
  refine Spares.install ?_ (TokenPrism.spares foreign)
  refine Spares.install ?_ (StoragePrism.spares foreign)
  exact spares_empty.install (AiPrism.spares foreign)

end Veilux
