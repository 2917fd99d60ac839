import KatanaRecomp.Lib.StateExcept

/-! # The root budget of the codegen cache

`enforce_root_budget` frees room in the cache root before a publish: it inventories the
root, sorts what it may remove with the least recently used first, and erases until a
headroom fits. Paths are relative to the root. -/
namespace KatanaRecomp.Codegen.Cache

abbrev Path := List String

def maximumLegacyCodegenCacheArtifactBytes : Nat := 256 * 1024 * 1024

def secureCacheRootLockArtifactName : String := ".katana-cache-root.lock"

def uint64Max : Nat := 2 ^ 64 - 1

inductive CacheError
  | unsafeRoot | inventoryBudget | unsafePath | unsafeLink | unsafeType | foreignArtifact
  | artifactSize | rootSize | duplicateIdentity
  | notSynchronized | inconsistent | unsafeArtifact | notFreed | unstable
  deriving DecidableEq

structure CodegenCacheRootLimits where
  maximumBytes : Nat := 8 * 1024 * 1024 * 1024
  maximumArtifacts : Nat := 65536
  maximumScanEntries : Nat := 262144

/-! ## What the root holds -/

inductive FileType
  | directory
  | regular (bytes : Nat) (lastWriteTime : Int)
  | symlink
  | other
  deriving DecidableEq

structure RootEntry where
  relative : Path
  type : FileType
  deriving DecidableEq

/-- The root as the recursive directory iterator walks it. -/
inductive CacheRoot
  | missing
  | notDirectory
  | directory (entries : List RootEntry)

def CacheRoot.entries : CacheRoot → List RootEntry
  | .directory entries => entries
  | _ => []

/-! ## Accounting -/

structure RootArtifactRecord where
  path : Path
  bytes : Nat
  lastWriteTime : Int
  accessSequence : Nat
  evictable : Bool
  deriving DecidableEq

/-- `generic_string`; the name of the root heads every identity and is left away. -/
def rootArtifactIdentity (path : Path) : String := "/".intercalate path

def RootArtifactRecord.identity (artifact : RootArtifactRecord) : String :=
  rootArtifactIdentity artifact.path

/-- The maps are lists in the order of iteration; an artifact's key is its identity. -/
structure RootAccounting where
  initialized : Bool := false
  totalBytes : Nat := 0
  accessSequences : List (String × Nat) := []
  artifacts : List RootArtifactRecord := []

def findArtifact (accounting : RootAccounting) (identity : String) : Option RootArtifactRecord :=
  accounting.artifacts.find? fun artifact => artifact.identity == identity

/-- The access sequence that is remembered for an identity, zero for none. -/
def recalledSequence (accessSequences : List (String × Nat)) (identity : String) : Nat :=
  (accessSequences.lookup identity).getD 0

/-! ## The inventory -/

def safeComponent (value : String) : Bool := value ≠ "" && value ≠ "." && value ≠ ".." &&
    value.toList.all fun character =>
      ('a' ≤ character && character ≤ 'z') || ('A' ≤ character && character ≤ 'Z') ||
        ('0' ≤ character && character ≤ '9') || character == '-' || character == '_' ||
        character == '.'

def transientCacheComponent (value : String) : Bool :=
  ".publish-bounded-".toList.isPrefixOf value.toList ||
    ".erase-bounded-".toList.isPrefixOf value.toList

/-- Whether the path is safe, and then whether it is transient. -/
def safeRootRelativeComponents (relative : Path) : Option Bool :=
  if relative.all safeComponent && !relative.isEmpty then
    some (relative.any transientCacheComponent)
  else none

/-- Whether the path is an artifact's, and then whether it is evictable. -/
def safeRootArtifactLayout (relative : Path) : Option Bool :=
  match safeRootRelativeComponents relative with
  | none => none
  | some isTransient =>
    if relative.length < 2 then none
    else if relative.head? = some ".compact" ∧ relative.length ≠ 2 then none
    else some !isTransient

structure Inventory where
  artifacts : List RootArtifactRecord := []
  totalBytes : Nat := 0
  deriving DecidableEq

def addRegular (accessSequences : List (String × Nat)) (found : Inventory) (path : Path)
    (bytes : Nat) (lastWriteTime : Int) : Except CacheError Inventory :=
  match safeRootArtifactLayout path with
  | none => .error .foreignArtifact
  | some evictable =>
    let identity := rootArtifactIdentity path
    let accessSequence := recalledSequence accessSequences identity
    if bytes > uint64Max then .error .artifactSize
    else if found.totalBytes > uint64Max - bytes then .error .rootSize
    else if found.artifacts.any fun artifact => artifact.identity == identity then
      .error .duplicateIdentity
    else .ok
      { artifacts :=
          found.artifacts ++ [{ path, bytes, lastWriteTime, accessSequence, evictable }]
        totalBytes := found.totalBytes + bytes }

/-- One round of the scan behind its count. -/
def scanEntry (accessSequences : List (String × Nat)) (found : Inventory)
    (entry : RootEntry) : Except CacheError Inventory :=
  match safeRootRelativeComponents entry.relative with
  | none => .error .unsafePath
  | some _ =>
    match entry.type with
    | .symlink => .error .unsafeLink
    | .directory => .ok found
    | .other => .error .unsafeType
    | .regular bytes lastWriteTime =>
      if entry.relative = [secureCacheRootLockArtifactName] then .ok found
      else addRegular accessSequences found entry.relative bytes lastWriteTime

def scanEntries (maximumScanEntries : Nat) (accessSequences : List (String × Nat)) :
    List RootEntry → Nat → Inventory → Except CacheError Inventory
  | [], _, found => .ok found
  | entry :: rest, scannedEntries, found =>
    if scannedEntries + 1 > maximumScanEntries then .error .inventoryBudget
    else
      match scanEntry accessSequences found entry with
      | .ok found => scanEntries maximumScanEntries accessSequences rest (scannedEntries + 1) found
      | .error e => .error e

def RootAccounting.scanned (accounting : RootAccounting) (found : Inventory) : RootAccounting where
  initialized := true
  totalBytes := found.totalBytes
  accessSequences := accounting.accessSequences.filter fun access =>
    found.artifacts.any fun artifact => artifact.identity == access.1
  artifacts := found.artifacts

def scanRootAccounting (accounting : RootAccounting) (root : CacheRoot)
    (limits : CodegenCacheRootLimits) : Except CacheError RootAccounting :=
  match root with
  | .missing => .ok { accounting with artifacts := [], totalBytes := 0, initialized := true }
  | .notDirectory => .error .unsafeRoot
  | .directory entries =>
    match scanEntries limits.maximumScanEntries accounting.accessSequences entries 0 {} with
    | .ok found => .ok (accounting.scanned found)
    | .error e => .error e

/-! ## Eviction -/

/-- The budget over a total and a number of artifacts. -/
def BudgetFits (limits : CodegenCacheRootLimits) (reservedBytes reservedArtifacts : Nat)
    (totalBytes artifactCount : Nat) : Prop :=
  reservedBytes ≤ limits.maximumBytes ∧ totalBytes ≤ limits.maximumBytes - reservedBytes ∧
    reservedArtifacts ≤ limits.maximumArtifacts ∧
    artifactCount ≤ limits.maximumArtifacts - reservedArtifacts

instance (limits : CodegenCacheRootLimits) (reservedBytes reservedArtifacts : Nat)
    (totalBytes artifactCount : Nat) :
    Decidable (BudgetFits limits reservedBytes reservedArtifacts totalBytes artifactCount) :=
  inferInstanceAs (Decidable (_ ∧ _))

def rootBudgetFits (accounting : RootAccounting) (limits : CodegenCacheRootLimits)
    (reservedBytes reservedArtifacts : Nat) : Prop :=
  BudgetFits limits reservedBytes reservedArtifacts accounting.totalBytes
    accounting.artifacts.length

instance (accounting : RootAccounting) (limits : CodegenCacheRootLimits)
    (reservedBytes reservedArtifacts : Nat) :
    Decidable (rootBudgetFits accounting limits reservedBytes reservedArtifacts) :=
  inferInstanceAs (Decidable (BudgetFits _ _ _ _ _))

def removeAccountedArtifact (accounting : RootAccounting) (identity : String) :
    Except CacheError RootAccounting :=
  let accessSequences := accounting.accessSequences.filter fun access => access.1 != identity
  match findArtifact accounting identity with
  | none => .ok { accounting with accessSequences }
  | some artifact =>
    if artifact.bytes > accounting.totalBytes then .error .inconsistent
    else .ok
      { accounting with
        totalBytes := accounting.totalBytes - artifact.bytes
        artifacts := accounting.artifacts.filter fun other => other.identity != identity
        accessSequences }

def olderRootArtifact (left right : RootArtifactRecord) : Bool :=
  if (left.accessSequence == 0) != (right.accessSequence == 0) then left.accessSequence == 0
  else if left.accessSequence ≠ right.accessSequence then
    left.accessSequence < right.accessSequence
  else if left.lastWriteTime ≠ right.lastWriteTime then
    left.lastWriteTime < right.lastWriteTime
  else left.identity < right.identity

/-- The comparison of the sort, by identity. -/
def olderIdentity (accounting : RootAccounting) (left right : String) : Bool :=
  match findArtifact accounting left, findArtifact accounting right with
  | some left, some right => olderRootArtifact left right
  | _, _ => false

def isCandidate (protectedPath : Path) (artifact : RootArtifactRecord) : Bool :=
  artifact.evictable && artifact.identity != rootArtifactIdentity protectedPath

def candidates (accounting : RootAccounting) (protectedPath : Path) : List String :=
  ((accounting.artifacts.filter (isCandidate protectedPath)).map
    RootArtifactRecord.identity).mergeSort fun left right =>
      !olderIdentity accounting right left

inductive SecureArtifactKind
  | missing | insecure | regular | oversized

/-- The secure file operations of the host, on the root and a path in it. -/
structure SecureIo where
  secureCacheRead : CacheRoot → Path → Nat → SecureArtifactKind × String
  secureCacheEraseIfMatches : CacheRoot → Path → String → Nat → Bool × CacheRoot
  secureCacheEraseOversized : CacheRoot → Path → Nat → Bool × CacheRoot
  secureCachePruneEmptyParents : CacheRoot → Path → CacheRoot

/-- Whether the artifact was erased; none where the read finds it unsafe. -/
def SecureIo.eraseArtifact (io : SecureIo) (root : CacheRoot) (path : Path) :
    Option (Bool × CacheRoot) :=
  match io.secureCacheRead root path maximumLegacyCodegenCacheArtifactBytes with
  | (.missing, _) => some (true, root)
  | (.regular, content) =>
    some (io.secureCacheEraseIfMatches root path content maximumLegacyCodegenCacheArtifactBytes)
  | (.oversized, _) =>
    some (io.secureCacheEraseOversized root path maximumLegacyCodegenCacheArtifactBytes)
  | (.insecure, _) => none

structure CacheState where
  accounting : RootAccounting
  root : CacheRoot

inductive Sweep
  | fits
  | raced
  | exhausted
  | failed (error : CacheError)

section
variable (io : SecureIo) (limits : CodegenCacheRootLimits)

/-- The loop over the sorted candidates. -/
def evictCandidates (reservedBytes reservedArtifacts : Nat) :
    List String → CacheState → Sweep × CacheState
  | [], s => (.exhausted, s)
  | identity :: rest, s =>
    match findArtifact s.accounting identity with
    | none => evictCandidates reservedBytes reservedArtifacts rest s
    | some artifact =>
      match io.eraseArtifact s.root artifact.path with
      | none => (.failed .unsafeArtifact, s)
      | some (false, root) => (.raced, { s with root })
      | some (true, root) =>
        match removeAccountedArtifact s.accounting identity with
        | .error e => (.failed e, { s with root })
        | .ok accounting =>
          let root := io.secureCachePruneEmptyParents root artifact.path.dropLast
          if rootBudgetFits accounting limits reservedBytes reservedArtifacts then
            (.fits, { accounting, root })
          else evictCandidates reservedBytes reservedArtifacts rest { accounting, root }

/-- The reconciliations that are left. -/
def reconcile (protectedPath : Path) (reservedBytes reservedArtifacts : Nat) :
    Nat → CacheState → Except CacheError Unit × CacheState
  | 0, s => (.error .unstable, s)
  | left + 1, s =>
    if rootBudgetFits s.accounting limits reservedBytes reservedArtifacts then (.ok (), s)
    else
      match evictCandidates io limits reservedBytes reservedArtifacts
        (candidates s.accounting protectedPath) s with
      | (.fits, s) => (.ok (), s)
      | (.failed e, s) => (.error e, s)
      | (.exhausted, s) => (.error .notFreed, s)
      | (.raced, s) =>
        match scanRootAccounting s.accounting s.root limits with
        | .ok accounting => reconcile protectedPath reservedBytes reservedArtifacts left
            { s with accounting }
        | .error e => (.error e, s)

/-- The reservation that an eviction makes room for. -/
def evictionReservedBytes (reservedBytes : Nat) : Nat := max reservedBytes (limits.maximumBytes / 8)

def evictionReservedArtifacts (reservedArtifacts : Nat) : Nat :=
  max reservedArtifacts (limits.maximumArtifacts / 8)

def enforceRootBudget (protectedPath : Path) (reservedBytes reservedArtifacts : Nat)
    (s : CacheState) : Except CacheError Unit × CacheState :=
  if !s.accounting.initialized then (.error .notSynchronized, s)
  else if rootBudgetFits s.accounting limits reservedBytes reservedArtifacts then (.ok (), s)
  else
    match scanRootAccounting s.accounting s.root limits with
    | .error e => (.error e, s)
    | .ok accounting =>
      if rootBudgetFits accounting limits reservedBytes reservedArtifacts then
        (.ok (), { s with accounting })
      else
        reconcile io limits protectedPath (evictionReservedBytes limits reservedBytes)
          (evictionReservedArtifacts limits reservedArtifacts) 3 { s with accounting }

end
end KatanaRecomp.Codegen.Cache
