import StellarIbc.CoreState
import StellarIbc.OrderedLayout

/-!
# Where a ledger's metadata has its changes

The order in which the changes of a ledger were made, read off the layout of the metadata
itself: transaction by transaction, and in each one those before the operations, those of the
operations and those after them, as far as the version of the metadata has such fields.
`ledger_changes` collects every change, and in this order.
-/

namespace StellarIbc.Core

/-! ### One transaction -/

/-- A place for a change in the metadata of a transaction. -/
inductive ChangePlace where
  | before (i : Nat)
  | operation (op i : Nat)
  | after (i : Nat)

/-- The places are ordered by part, operation and position. -/
def ChangePlace.rank : ChangePlace → ℕ ×ₗ ℕ ×ₗ ℕ
  | .before i => toLex (0, toLex (0, i))
  | .operation op i => toLex (1, toLex (op, i))
  | .after i => toLex (2, toLex (0, i))

instance : Preorder ChangePlace := Preorder.lift ChangePlace.rank

namespace ChangePlace

theorem before_lt_before {i j : Nat} (hlt : i < j) : before i < before j :=
  Prod.Lex.toLex_lt_toLex.mpr (.inr ⟨rfl, Prod.Lex.toLex_lt_toLex.mpr (.inr ⟨rfl, hlt⟩)⟩)

theorem after_lt_after {i j : Nat} (hlt : i < j) : after i < after j :=
  Prod.Lex.toLex_lt_toLex.mpr (.inr ⟨rfl, Prod.Lex.toLex_lt_toLex.mpr (.inr ⟨rfl, hlt⟩)⟩)

theorem operation_lt_operation {place place' : ℕ ×ₗ ℕ} (hlt : place < place') :
    operation (ofLex place).1 (ofLex place).2 < operation (ofLex place').1 (ofLex place').2 :=
  Prod.Lex.toLex_lt_toLex.mpr (.inr ⟨rfl, hlt⟩)

theorem before_lt_operation (i op j : Nat) : before i < operation op j :=
  Prod.Lex.toLex_lt_toLex.mpr (.inl Nat.zero_lt_one)

theorem before_lt_after (i j : Nat) : before i < after j :=
  Prod.Lex.toLex_lt_toLex.mpr (.inl Nat.zero_lt_two)

theorem operation_lt_after (op i j : Nat) : operation op i < after j :=
  Prod.Lex.toLex_lt_toLex.mpr (.inl Nat.one_lt_two)

end ChangePlace

namespace TransactionMeta

/-- `V0` has operations only, and the changes of a `V1` transaction come before them. -/
def changesBefore : TransactionMeta → List LedgerEntryChange
  | .v0 _ => []
  | .v1 txChanges _ => txChanges
  | .v2 before _ _ | .v3 before _ _ | .v4 before _ _ => before

def operations : TransactionMeta → List OperationMeta
  | .v0 operations | .v1 _ operations | .v2 _ operations _ | .v3 _ operations _
  | .v4 _ operations _ => operations

def changesAfter : TransactionMeta → List LedgerEntryChange
  | .v0 _ | .v1 _ _ => []
  | .v2 _ _ after | .v3 _ _ after | .v4 _ _ after => after

/-- The change at a place. -/
def changeAt (txMeta : TransactionMeta) : ChangePlace → Option LedgerEntryChange
  | .before i => txMeta.changesBefore[i]?
  | .operation op i => txMeta.operations[op]?.bind fun changes => changes[i]?
  | .after i => txMeta.changesAfter[i]?

end TransactionMeta

/-! ### Ledgers -/

def LedgerMetadata.transactions : LedgerMetadata → List TransactionMeta
  | .decoded (.v0 txProcessing) | .decoded (.v1 txProcessing) | .decoded (.v2 txProcessing) =>
      txProcessing
  | .missing | .undecodable => []

/-- A place in a series of ledgers: the ledger, the transaction and the place in it. -/
abbrev LedgerPlace := ℕ ×ₗ ℕ ×ₗ ChangePlace

/-- The change at a place of the ledgers `seqs`. -/
def Ledgers.changeAt (ledgers : Ledgers) (seqs : List UInt32) (place : LedgerPlace) :
    Option LedgerEntryChange :=
  seqs[(ofLex place).1]?.bind fun seq =>
    (ledgers seq).transactions[(ofLex (ofLex place).2).1]?.bind fun txMeta =>
      txMeta.changeAt (ofLex (ofLex place).2).2

/-! ### What is collected -/

namespace TransactionMeta

variable (txMeta : TransactionMeta)

theorem listing_before :
    Listing (fun place : ChangePlace => match place with
      | .before i => txMeta.changesBefore[i]?
      | _ => none) txMeta.changesBefore := by
  refine (Listing.getElem? txMeta.changesBefore).image ChangePlace.before ?_ ?_ ?_
  · exact ChangePlace.before_lt_before
  · intro i
    rfl
  · intro place htaken
    cases place with
    | before i => exact ⟨i, rfl⟩
    | operation op i => exact absurd rfl htaken
    | after i => exact absurd rfl htaken

theorem listing_operations :
    Listing (fun place : ChangePlace => match place with
      | .operation op i => txMeta.operations[op]?.bind fun changes => changes[i]?
      | _ => none) txMeta.operations.flatten := by
  have hparts : Listing (fun place : ℕ ×ₗ ℕ =>
      txMeta.operations[(ofLex place).1]?.bind fun changes => changes[(ofLex place).2]?)
      (txMeta.operations.flatMap id) :=
    .flatMap fun changes _ => .getElem? changes
  rw [List.flatMap_id] at hparts
  refine hparts.image
    (fun place : ℕ ×ₗ ℕ => ChangePlace.operation (ofLex place).1 (ofLex place).2) ?_ ?_ ?_
  · exact ChangePlace.operation_lt_operation
  · intro place
    rfl
  · intro place htaken
    cases place with
    | before i => exact absurd rfl htaken
    | operation op i => exact ⟨toLex (op, i), rfl⟩
    | after i => exact absurd rfl htaken

theorem listing_after :
    Listing (fun place : ChangePlace => match place with
      | .after i => txMeta.changesAfter[i]?
      | _ => none) txMeta.changesAfter := by
  refine (Listing.getElem? txMeta.changesAfter).image ChangePlace.after ?_ ?_ ?_
  · exact ChangePlace.after_lt_after
  · intro i
    rfl
  · intro place htaken
    cases place with
    | before i => exact absurd rfl htaken
    | operation op i => exact absurd rfl htaken
    | after i => exact ⟨i, rfl⟩

theorem collectTxChanges_eq :
    collectTxChanges txMeta =
      txMeta.changesBefore ++ (txMeta.operations.flatten ++ txMeta.changesAfter) := by
  cases txMeta with
  | v0 operations => exact (List.append_nil _).symm
  | v1 txChanges operations => exact congrArg (txChanges ++ ·) (List.append_nil _).symm
  | v2 before operations after => exact List.append_assoc ..
  | v3 before operations after => exact List.append_assoc ..
  | v4 before operations after => exact List.append_assoc ..

/-- The changes of a transaction are collected in order, whatever its version. -/
theorem listing_collectTxChanges : Listing txMeta.changeAt (collectTxChanges txMeta) := by
  rw [collectTxChanges_eq]
  have hbehind : Listing (fun place : ChangePlace => match place with
      | .before _ => none
      | place => txMeta.changeAt place) (txMeta.operations.flatten ++ txMeta.changesAfter) := by
    refine txMeta.listing_operations.append txMeta.listing_after ?_ ?_ ?_
    · intro place place' hoperation hafter
      cases place with
      | operation op i =>
          cases place' with
          | after j => exact ChangePlace.operation_lt_after op i j
          | before j => exact absurd rfl hafter
          | operation op' j => exact absurd rfl hafter
      | before i => exact absurd rfl hoperation
      | after i => exact absurd rfl hoperation
    · rintro (i | ⟨op, i⟩ | i)
      · exact .inl rfl
      · exact .inr rfl
      · exact .inl rfl
    · rintro (i | ⟨op, i⟩ | i)
      · rfl
      · exact (Option.or_none).symm
      · rfl
  refine txMeta.listing_before.append hbehind ?_ ?_ ?_
  · intro place place' hbefore hlater
    cases place with
    | before i =>
        cases place' with
        | before j => exact absurd rfl hlater
        | operation op j => exact ChangePlace.before_lt_operation i op j
        | after j => exact ChangePlace.before_lt_after i j
    | operation op i => exact absurd rfl hbefore
    | after i => exact absurd rfl hbefore
  · rintro (i | ⟨op, i⟩ | i)
    · exact .inr rfl
    · exact .inl rfl
    · exact .inl rfl
  · rintro (i | ⟨op, i⟩ | i)
    · exact (Option.or_none).symm
    · rfl
    · rfl

end TransactionMeta

/-- What the gateway collects from a ledger. -/
def Ledgers.collected (ledgers : Ledgers) (seq : UInt32) : List LedgerEntryChange :=
  match ledgers seq with
  | .decoded closeMeta => ledgerChanges closeMeta
  | .missing | .undecodable => []

theorem Ledgers.collected_eq (ledgers : Ledgers) (seq : UInt32) :
    ledgers.collected seq = (ledgers seq).transactions.flatMap collectTxChanges := by
  unfold Ledgers.collected LedgerMetadata.transactions
  rcases ledgers seq with _ | _ | (_ | _ | _) <;> rfl

/-- **Every change is collected, in order.**  What the gateway collects from the ledgers is
the listing of the changes that their metadata has. -/
theorem Ledgers.listing_collected (ledgers : Ledgers) (seqs : List UInt32) :
    Listing (ledgers.changeAt seqs) (seqs.flatMap ledgers.collected) := by
  have hledger : ∀ seq ∈ seqs, Listing (fun place : ℕ ×ₗ ChangePlace =>
      (ledgers seq).transactions[(ofLex place).1]?.bind fun txMeta =>
        txMeta.changeAt (ofLex place).2) (ledgers.collected seq) := by
    intro seq _
    rw [ledgers.collected_eq]
    exact .flatMap fun txMeta _ => txMeta.listing_collectTxChanges
  exact .flatMap hledger

end StellarIbc.Core
