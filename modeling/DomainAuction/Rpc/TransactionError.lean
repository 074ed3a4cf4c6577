import DomainAuction.Rpc.Value

/-!
# TransactionError — why transactions fail

A node names the reason why a transaction failed. Most reasons are a name and a fixed text; a few
carry a number, and an instruction that fails has a reason of its own.
-/

namespace DomainAuction.Rpc

/-! ## Instructions -/

/-- Why an instruction failed. -/
inductive InstructionError where
  | named (text : String)
  | custom (code : UInt32)
  deriving DecidableEq

namespace InstructionError

/-- The reasons without a number, by their names. -/
def texts : List (String × String) :=
  [("GenericError", "generic instruction error"),
   ("InvalidArgument", "invalid program argument"),
   ("InvalidInstructionData", "invalid instruction data"),
   ("InvalidAccountData", "invalid account data for instruction"),
   ("AccountDataTooSmall", "account data too small for instruction"),
   ("InsufficientFunds", "insufficient funds for instruction"),
   ("IncorrectProgramId", "incorrect program id for instruction"),
   ("MissingRequiredSignature", "missing required signature for instruction"),
   ("AccountAlreadyInitialized", "instruction requires an uninitialized account"),
   ("UninitializedAccount", "instruction requires an initialized account"),
   ("UnbalancedInstruction",
     "sum of account balances before and after instruction do not match"),
   ("ModifiedProgramId", "instruction illegally modified the program id of an account"),
   ("ExternalAccountLamportSpend",
     "instruction spent from the balance of an account it does not own"),
   ("ExternalAccountDataModified", "instruction modified data of an account it does not own"),
   ("ReadonlyLamportChange", "instruction changed the balance of a read-only account"),
   ("ReadonlyDataModified", "instruction modified data of a read-only account"),
   ("DuplicateAccountIndex", "instruction contains duplicate accounts"),
   ("ExecutableModified", "instruction changed executable bit of an account"),
   ("RentEpochModified", "instruction modified rent epoch of an account"),
   ("NotEnoughAccountKeys", "insufficient account keys for instruction"),
   ("AccountDataSizeChanged",
     "program other than the account's owner changed the size of the account data"),
   ("AccountNotExecutable", "instruction expected an executable account"),
   ("AccountBorrowFailed",
     "instruction tries to borrow reference for an account which is already borrowed"),
   ("AccountBorrowOutstanding",
     "instruction left account with an outstanding borrowed reference"),
   ("DuplicateAccountOutOfSync",
     "instruction modifications of multiply-passed account differ"),
   ("InvalidError", "program returned invalid error code"),
   ("ExecutableDataModified", "instruction changed executable accounts data"),
   ("ExecutableLamportChange", "instruction changed the balance of an executable account"),
   ("ExecutableAccountNotRentExempt", "executable accounts must be rent exempt"),
   ("UnsupportedProgramId", "Unsupported program id"),
   ("CallDepth", "Cross-program invocation call depth too deep"),
   ("MissingAccount", "An account required by the instruction is missing"),
   ("ReentrancyNotAllowed",
     "Cross-program invocation reentrancy not allowed for this instruction"),
   ("MaxSeedLengthExceeded", "Length of the seed is too long for address generation"),
   ("InvalidSeeds", "Provided seeds do not result in a valid address"),
   ("InvalidRealloc", "Failed to reallocate account data"),
   ("ComputationalBudgetExceeded", "Computational budget exceeded"),
   ("PrivilegeEscalation",
     "Cross-program invocation with unauthorized signer or writable account"),
   ("ProgramEnvironmentSetupFailure", "Failed to create program execution environment"),
   ("ProgramFailedToComplete", "Program failed to complete"),
   ("ProgramFailedToCompile", "Program failed to compile"),
   ("Immutable", "Account is immutable"),
   ("IncorrectAuthority", "Incorrect authority provided"),
   ("BorshIoError", "Failed to serialize or deserialize account data"),
   ("AccountNotRentExempt", "An account does not have enough lamports to be rent-exempt"),
   ("InvalidAccountOwner", "Invalid account owner"),
   ("ArithmeticOverflow", "Program arithmetic overflowed"),
   ("UnsupportedSysvar", "Unsupported sysvar"),
   ("IllegalOwner", "Provided owner is not allowed"),
   ("MaxAccountsDataAllocationsExceeded",
     "Accounts data allocations exceeded the maximum allowed per transaction"),
   ("MaxAccountsExceeded", "Max accounts exceeded"),
   ("MaxInstructionTraceLengthExceeded", "Max instruction trace length exceeded"),
   ("BuiltinProgramsMustConsumeComputeUnits",
     "Builtin programs must consume compute units")]

def message : InstructionError → String
  | named text => text
  | custom code => "custom program error: 0x" ++ String.ofList (Nat.toDigits 16 code.toNat)

/-- Reads a reason. One of them used to carry a text, which is not kept. -/
def read (v : Value) : Option InstructionError :=
  match v.namedFields?.bind (·.named.lookup "BorshIoError") with
  | some _ => named <$> texts.lookup "BorshIoError"
  | none =>
    match v.case? with
    | some ("Custom", code) => custom <$> code.u32?
    | _ => do named <$> texts.lookup (← v.name?)

end InstructionError

/-! ## Transactions -/

/-- Why a transaction failed. -/
inductive TransactionError where
  | named (text : String)
  | instruction (index : UInt8) (error : InstructionError)
  | duplicateInstruction (index : UInt8)
  | insufficientFundsForRent (account : UInt8)
  | executionRestricted (account : UInt8)
  deriving DecidableEq

namespace TransactionError

/-- The reasons without a number, by their names. -/
def texts : List (String × String) :=
  [("AccountInUse", "Account in use"),
   ("AccountLoadedTwice", "Account loaded twice"),
   ("AccountNotFound", "Attempt to debit an account but found no record of a prior credit."),
   ("ProgramAccountNotFound", "Attempt to load a program that does not exist"),
   ("InsufficientFundsForFee", "Insufficient funds for fee"),
   ("InvalidAccountForFee", "This account may not be used to pay transaction fees"),
   ("AlreadyProcessed", "This transaction has already been processed"),
   ("BlockhashNotFound", "Blockhash not found"),
   ("CallChainTooDeep", "Loader call chain is too deep"),
   ("MissingSignatureForFee", "Transaction requires a fee but has no signature present"),
   ("InvalidAccountIndex", "Transaction contains an invalid account reference"),
   ("SignatureFailure", "Transaction did not pass signature verification"),
   ("InvalidProgramForExecution",
     "This program may not be used for executing instructions"),
   ("SanitizeFailure", "Transaction failed to sanitize accounts offsets correctly"),
   ("ClusterMaintenance",
     "Transactions are currently disabled due to cluster maintenance"),
   ("AccountBorrowOutstanding",
     "Transaction processing left an account with an outstanding borrowed reference"),
   ("WouldExceedMaxBlockCostLimit", "Transaction would exceed max Block Cost Limit"),
   ("UnsupportedVersion", "Transaction version is unsupported"),
   ("InvalidWritableAccount",
     "Transaction loads a writable account that cannot be written"),
   ("WouldExceedMaxAccountCostLimit",
     "Transaction would exceed max account limit within the block"),
   ("WouldExceedAccountDataBlockLimit",
     "Transaction would exceed account data limit within the block"),
   ("TooManyAccountLocks", "Transaction locked too many accounts"),
   ("AddressLookupTableNotFound",
     "Transaction loads an address table account that doesn't exist"),
   ("InvalidAddressLookupTableOwner",
     "Transaction loads an address table account with an invalid owner"),
   ("InvalidAddressLookupTableData",
     "Transaction loads an address table account with invalid data"),
   ("InvalidAddressLookupTableIndex",
     "Transaction address table lookup uses an invalid index"),
   ("InvalidRentPayingAccount",
     "Transaction leaves an account with a lower balance than rent-exempt minimum"),
   ("WouldExceedMaxVoteCostLimit", "Transaction would exceed max Vote Cost Limit"),
   ("WouldExceedAccountDataTotalLimit",
     "Transaction would exceed total account data limit"),
   ("MaxLoadedAccountsDataSizeExceeded",
     "Transaction exceeded max loaded accounts data size cap"),
   ("InvalidLoadedAccountsDataSizeLimit",
     "LoadedAccountsDataSizeLimit set for transaction must be greater than 0."),
   ("ResanitizationNeeded", "ResanitizationNeeded"),
   ("UnbalancedTransaction",
     "Sum of account balances before and after transaction do not match"),
   ("ProgramCacheHitMaxLimit", "Program cache hit max limit"),
   ("CommitCancelled", "CommitCancelled")]

def message : TransactionError → String
  | named text => text
  | instruction index error =>
    "Error processing Instruction " ++ toString index ++ ": " ++ error.message
  | duplicateInstruction index =>
    "Transaction contains a duplicate instruction (" ++ toString index ++ ") that is not allowed"
  | insufficientFundsForRent account =>
    "Transaction results in an account (" ++ toString account
      ++ ") with insufficient funds for rent"
  | executionRestricted account =>
    "Execution of the program referenced by account at index " ++ toString account
      ++ " is temporarily restricted."

/-- Reads the instruction that failed and why. Of its index, only the low byte counts; what else is
in the list does not matter. -/
def readInstruction : Value → Option TransactionError
  | .list (index :: error :: _) => do
    return instruction (← index.u64?).toUInt8 (← InstructionError.read error)
  | _ => none

/-- Reads the account that is at fault. -/
def readAccountIndex (v : Value) : Option UInt8 := do
  (← v.namedFields?).get? "account_index" Value.u8?

/-- Reads a reason. -/
def read (v : Value) : Option TransactionError :=
  match v.namedFields?.bind (·.named.lookup "InstructionError") with
  | some failure => readInstruction failure
  | none =>
    match v.case? with
    | some ("DuplicateInstruction", index) => duplicateInstruction <$> index.u8?
    | some ("InsufficientFundsForRent", content) =>
      insufficientFundsForRent <$> readAccountIndex content
    | some ("ProgramExecutionTemporarilyRestricted", content) =>
      executionRestricted <$> readAccountIndex content
    | _ => do named <$> texts.lookup (← v.name?)

/-- Reads an outcome: nothing for a success, or the reason for a failure. -/
def readOutcome (nothing : Value → Option Unit) (v : Value) :
    Option (Except TransactionError Unit) := do
  match ← v.case? with
  | ("Ok", content) => .ok <$> nothing content
  | ("Err", error) => .error <$> read error
  | _ => none

end TransactionError

end DomainAuction.Rpc
