import Outlayer.Contract.State

/-!
# `Contract.Projects` — the project registry

Creating and deleting projects, adding and removing versions, and moving a project to an account that agreed
to take it. Every entry point that stores bytes charges for them and refunds the excess of the attached
deposit; every entry point that frees a record refunds that record's deposit.
-/

namespace Outlayer
open Text Checked Collections

/-! ## The shape of a code source and of a name -/

/-- The longest texts of a source, in bytes. -/
def maxWasmUrlLen : Nat := 2048
def maxRepoLen : Nat := 512
def maxCommitLen : Nat := 256
def maxBuildTargetLen : Nat := 64

/-- `EVENT_JSON` opens every event log; no field of a code source may spell it. -/
def namesAnEvent (field value : String) : Option String :=
  if contains value "EVENT_JSON" then some (field ++ " must not contain 'EVENT_JSON'") else none

/-- The characters of a repository. -/
def isRepoChar (c : Char) : Bool :=
  isAsciiAlphanumeric c || c == '.' || c == '_' || c == '-' || c == '/' || c == ':'

/-- The characters of a commit. -/
def isCommitChar (c : Char) : Bool :=
  isAsciiAlphanumeric c || c == '.' || c == '_' || c == '/' || c == '-' || c == '+'

/-- The characters of a target. -/
def isBuildTargetChar (c : Char) : Bool := isAsciiAlphanumeric c || c == '.' || c == '_' || c == '-'

/-- What is wrong with a build that is downloaded. -/
def wasmUrlError (url hash : String) : Option String :=
  if hash.utf8ByteSize ≠ 64 ∨ ¬ hash.toList.all isLowerHexdigit then
    some "source.hash must be the SHA-256 of the WASM as 64 lowercase hex characters"
  else if ¬ startsWith url "https://" ∨ url.utf8ByteSize ≤ 8 then
    some "source.url must be an https:// URL"
  else if url.utf8ByteSize > maxWasmUrlLen then
    some ("source.url is longer than " ++ toString maxWasmUrlLen ++ " bytes")
  else if url.toList.any fun c => isWhitespace c || isControl c then
    some "source.url must not contain whitespace or control characters"
  else none

/-- What is wrong with a build from a repository. -/
def gitHubError (repo commit : String) : Option String :=
  if repo = "" ∨ repo.utf8ByteSize > maxRepoLen then
    some ("source.repo must be 1–" ++ toString maxRepoLen ++ " bytes")
  else if startsWith repo "-" ∨ contains repo ".." ∨ ¬ repo.toList.all isRepoChar then
    some "source.repo must be a GitHub repository (letters, digits, '.', '_', '-', '/', ':'; no leading '-', no '..')"
  else if commit = "" ∨ commit.utf8ByteSize > maxCommitLen then
    some ("source.commit must be 1–" ++ toString maxCommitLen ++ " bytes")
  else if startsWith commit "-" ∨ contains commit ".." ∨ ¬ commit.toList.all isCommitChar then
    some ("source.commit must be a commit hash, branch or tag (letters, digits, '.', '_', '/', '-', '+'; "
      ++ "no leading '-', no '..')")
  else none

/-- What is wrong with a target. -/
def buildTargetError (buildTarget : Option String) : Option String :=
  buildTarget.bind fun t =>
    if t = "" ∨ t.utf8ByteSize > maxBuildTargetLen ∨ ¬ t.toList.all isBuildTargetChar then
      some ("source.build_target must be 1–" ++ toString maxBuildTargetLen
        ++ " bytes of letters, digits, '.', '_' or '-'")
    else none

/-- Why a code source cannot be stored or run; `none` when it is well formed. -/
def codeSourceError : CodeSource → Option String
  | .wasmUrl url hash buildTarget =>
      wasmUrlError url hash <|> namesAnEvent "source.url" url <|> buildTargetError buildTarget
  | .gitHub repo commit buildTarget =>
      gitHubError repo commit <|> namesAnEvent "source.repo" repo <|> namesAnEvent "source.commit" commit
        <|> buildTargetError buildTarget

/-- A source with nothing wrong. -/
def assertCodeSource (source : CodeSource) : Res Unit :=
  match codeSourceError source with
  | some why => .error why
  | none     => .ok ()

/-- A project name is 1–64 bytes of ASCII letters, digits, `-` or `_`. -/
def assertProjectName (name : String) : Res Unit := do
  require (name ≠ "") "Project name cannot be empty"
  require (name.utf8ByteSize ≤ 64) "Project name too long (max 64 chars)"
  require (name.toList.all fun c => isAsciiAlphanumeric c || c == '-' || c == '_')
    "Project name must contain only ASCII letters, digits, dash, or underscore"

/-! ## Keys and storage sizes -/

/-- The bytes that every project and every version takes. -/
def projectBaseStorage : Nat := 200
def versionBaseStorage : Nat := 150

/-- `{owner}/{name}`. -/
def projectIdOf (owner : AccountId) (name : String) : String := owner.name ++ "/" ++ name

/-- What a version is known by. -/
def getVersionKey : CodeSource → String
  | .wasmUrl _ hash _     => hash
  | .gitHub repo commit _ => repo ++ "@" ++ commit

/-- The bytes a project takes. -/
def calculateProjectStorageSize (projectId uuid : String) : Nat :=
  projectBaseStorage + projectId.utf8ByteSize + uuid.utf8ByteSize + 8 + 16

/-- The bytes a version takes. -/
def calculateVersionStorageSize (source : CodeSource) : Nat :=
  let sourceSize := match source with
    | .gitHub repo commit buildTarget =>
        repo.utf8ByteSize + commit.utf8ByteSize + (buildTarget.map String.utf8ByteSize).getD 0
    | .wasmUrl url hash buildTarget =>
        url.utf8ByteSize + hash.utf8ByteSize + (buildTarget.map String.utf8ByteSize).getD 0
  versionBaseStorage + sourceSize + 64 + 8 + 16

/-- The bytes an acceptance record takes: the record overhead, the map prefix, the serialised key and the
    value, as the chain's storage meter counts them. -/
def transferAcceptanceBytes (a : TransferAcceptance) : Nat :=
  40 + 1 + ((4 + a.newOwner.name.utf8ByteSize) + (4 + a.from.name.utf8ByteSize) + (4 + a.name.utf8ByteSize)) + 16

/-! ## Projects and versions -/

/-- Create a project with its first version. -/
def createProject (env : Env) (c : Contract) (name : String) (source : CodeSource) :
    Res (Registry × List StorageEffect) := do
  assertNotPaused c.toConfig
  let caller := env.predecessor
  let projectId := projectIdOf caller name
  assertProjectName name
  require (c.projects.lookup projectId = none) ("Project '" ++ projectId ++ "' already exists")
  let nextProjectId ← add 64 c.nextProjectId 1
  -- from the counter, never from the name: a name used again gets another uuid
  let uuid := "p" ++ formatHex 16 nextProjectId
  assertCodeSource source
  let versionKey := getVersionKey source
  let projectStorage := calculateProjectStorageSize projectId uuid
  let versionStorage := calculateVersionStorageSize source
  let requiredDeposit := (projectStorage + versionStorage) * storagePricePerByte
  require (env.attachedDeposit ≥ requiredDeposit)
    ("Insufficient storage deposit. Required: " ++ toString requiredDeposit ++ " yoctoNEAR, attached: "
      ++ toString env.attachedDeposit ++ " yoctoNEAR")
  let project : Project :=
    { uuid, owner := caller, name, activeVersion := versionKey, createdAt := env.blockTimestamp
      storageDeposit := projectStorage * storagePricePerByte }
  let versionInfo : VersionInfo :=
    { source, addedAt := env.blockTimestamp, storageDeposit := versionStorage * storagePricePerByte }
  pure ({ c.toRegistry with
      projects := c.projects.insert projectId project
      projectVersions := c.projectVersions.insert uuid (AList.insert versionKey versionInfo ∅)
      userProjectsIndex := Index.insert c.userProjectsIndex caller projectId
      nextProjectId },
    refund caller (env.attachedDeposit - requiredDeposit))

/-- Add a version to a project of the caller. -/
def addVersion (env : Env) (c : Contract) (projectName : String) (source : CodeSource) (setActive : Bool) :
    Res (Registry × List StorageEffect) := do
  assertNotPaused c.toConfig
  let caller := env.predecessor
  let projectId := projectIdOf caller projectName
  let project ← expect (c.projects.lookup projectId) "Project not found"
  require (project.owner = caller) "Only project owner can add versions"
  assertCodeSource source
  let versionKey := getVersionKey source
  let requiredDeposit := calculateVersionStorageSize source * storagePricePerByte
  require (env.attachedDeposit ≥ requiredDeposit)
    ("Insufficient storage deposit. Required: " ++ toString requiredDeposit ++ " yoctoNEAR, attached: "
      ++ toString env.attachedDeposit ++ " yoctoNEAR")
  let versions ← expect (c.projectVersions.lookup project.uuid) "Project versions not found"
  require (versions.lookup versionKey = none) ("Version '" ++ versionKey ++ "' already exists in project")
  let versionInfo : VersionInfo :=
    { source, addedAt := env.blockTimestamp, storageDeposit := requiredDeposit }
  pure ({ c.toRegistry with
      projectVersions := c.projectVersions.insert project.uuid (versions.insert versionKey versionInfo)
      projects :=
        if setActive then c.projects.insert projectId { project with activeVersion := versionKey }
        else c.projects },
    refund caller (env.attachedDeposit - requiredDeposit))

/-- The version a project runs from now on. -/
def setActiveVersion (env : Env) (c : Contract) (projectName versionKey : String) :
    Res (Registry × List StorageEffect) := do
  let caller := env.predecessor
  let projectId := projectIdOf caller projectName
  let project ← expect (c.projects.lookup projectId) "Project not found"
  require (project.owner = caller) "Only project owner can change active version"
  let versions ← expect (c.projectVersions.lookup project.uuid) "Project versions not found"
  require (versions.lookup versionKey ≠ none) ("Version '" ++ versionKey ++ "' not found in project")
  pure ({ c.toRegistry with
      projects := c.projects.insert projectId { project with activeVersion := versionKey } }, [])

/-- Remove a version that is not the active one; its deposit goes back. -/
def removeVersion (env : Env) (c : Contract) (projectName versionKey : String) :
    Res (Registry × List StorageEffect) := do
  let caller := env.predecessor
  let projectId := projectIdOf caller projectName
  let project ← expect (c.projects.lookup projectId) "Project not found"
  require (project.owner = caller) "Only project owner can remove versions"
  require (project.activeVersion ≠ versionKey)
    "Cannot remove active version. Switch to another version first."
  let versions ← expect (c.projectVersions.lookup project.uuid) "Project versions not found"
  let versionInfo ← expect (versions.lookup versionKey) "Version not found"
  pure ({ c.toRegistry with
      projectVersions := c.projectVersions.insert project.uuid (versions.erase versionKey) },
    refund caller versionInfo.storageDeposit)

/-- Delete a project with all its versions. -/
def deleteProject (env : Env) (c : Contract) (projectName : String) : Res (Registry × List StorageEffect) := do
  let caller := env.predecessor
  let projectId := projectIdOf caller projectName
  let project ← expect (c.projects.lookup projectId) "Project not found"
  require (project.owner = caller) "Only project owner can delete project"
  pure ({ c.toRegistry with
      projects := c.projects.erase projectId
      projectVersions := c.projectVersions.erase project.uuid
      userProjectsIndex := Index.remove c.userProjectsIndex caller projectId },
    refund caller project.storageDeposit
      ++ [emitSystemEvent c.toConfig (.projectStorageCleanup projectId project.uuid env.blockTimestamp)])

/-! ## Moving a project -/

/-- Agree to take project `from/name`. -/
def acceptProjectTransfer (env : Env) (c : Contract) («from» : AccountId) (name : String) :
    Res (Registry × List StorageEffect) := do
  assertNotPaused c.toConfig
  let caller := env.predecessor
  assertProjectName name
  let projectId := projectIdOf caller name
  require (c.projects.lookup projectId = none)
    ("Project '" ++ projectId ++ "' already exists; a transfer onto that name would be refused")
  let acceptance : TransferAcceptance := { newOwner := caller, «from», name }
  require (c.projectTransferAcceptances.lookup acceptance = none)
    ("'" ++ caller.name ++ "' has already accepted project " ++ from.name ++ "/" ++ name)
  let requiredDeposit := transferAcceptanceBytes acceptance * storagePricePerByte
  require (env.attachedDeposit ≥ requiredDeposit)
    ("Insufficient storage deposit for the acceptance record. Required: " ++ toString requiredDeposit
      ++ " yoctoNEAR, attached: " ++ toString env.attachedDeposit ++ " yoctoNEAR")
  pure ({ c.toRegistry with
      projectTransferAcceptances := c.projectTransferAcceptances.insert acceptance requiredDeposit },
    refund caller (env.attachedDeposit - requiredDeposit)
      ++ [emitSystemEvent c.toConfig (.projectTransferAccepted caller «from» name)])

/-- Withdraw an acceptance that has not been used. -/
def revokeProjectTransfer (env : Env) (c : Contract) («from» : AccountId) (name : String) :
    Res (Registry × List StorageEffect) := do
  let caller := env.predecessor
  let acceptance : TransferAcceptance := { newOwner := caller, «from», name }
  let deposit ← expect (c.projectTransferAcceptances.lookup acceptance)
    ("'" ++ caller.name ++ "' has no acceptance for project " ++ from.name ++ "/" ++ name)
  pure ({ c.toRegistry with
      projectTransferAcceptances := c.projectTransferAcceptances.erase acceptance },
    refund caller deposit ++ [emitSystemEvent c.toConfig (.projectTransferRevoked caller «from» name)])

/-- Move a project of the caller to an account that accepted it. A priced project does not move. -/
def transferProject (env : Env) (c : Contract) (projectName : String) (newOwner : AccountId) :
    Res (Registry × List StorageEffect) := do
  let caller := env.predecessor
  let oldProjectId := projectIdOf caller projectName
  require (c.projectPricing.lookup oldProjectId = none)
    ("Project '" ++ oldProjectId ++ "' is priced, and a priced project does not move: ask the OutLayer operator to "
      ++ "unprice it (remove_project_pricing) first")
  let acceptance : TransferAcceptance := { newOwner, «from» := caller, name := projectName }
  let acceptanceDeposit ← expect (c.projectTransferAcceptances.lookup acceptance)
    ("'" ++ newOwner.name ++ "' has not accepted project " ++ oldProjectId
      ++ ": it calls accept_project_transfer(from: \"" ++ caller.name ++ "\", name: \"" ++ projectName
      ++ "\") first")
  let project ← expect (c.projects.lookup oldProjectId) "Project not found"
  require (project.owner = caller) "Only project owner can transfer project"
  let newProjectId := projectIdOf newOwner projectName
  -- moved onto itself, a project finds its own name free
  let remaining := c.projects.erase oldProjectId
  require (remaining.lookup newProjectId = none) ("Project '" ++ newProjectId ++ "' already exists")
  let indexWithout := Index.remove c.userProjectsIndex caller oldProjectId
  pure ({ c.toRegistry with
      projects := remaining.insert newProjectId { project with owner := newOwner }
      userProjectsIndex := Index.insert indexWithout newOwner newProjectId
      projectTransferAcceptances := c.projectTransferAcceptances.erase acceptance },
    refund newOwner acceptanceDeposit
      ++ [emitSystemEvent c.toConfig
            (.projectTransferred oldProjectId newProjectId project.uuid caller newOwner)])

end Outlayer
