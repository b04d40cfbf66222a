import ApiCatalog.Client.Action

/-!
# Listing catalog entries

The listing shows one row for each reference that resolves: the name of the entry and the schema
identifiers of the export. References that do not resolve are reported together at the end.
-/
namespace ApiCatalog.Listing

structure Options where
  catalogWorkspace : String
  /-- The only entry to list. -/
  entry : Option String
  deriving DecidableEq, Repr, Inhabited

/-- The partition of the catalog, which has to be below the root. -/
def Options.validate (o : Options) : Except ClientError Partition :=
  if o.catalogWorkspace = "" then .error .missingWorkspace
  else
    match Partition.ofString o.catalogWorkspace with
    | .ok p => if p.isRooted then .ok p else .error (.invalidWorkspace o.catalogWorkspace)
    | .error _ => .error (.invalidWorkspace o.catalogWorkspace)

def header : String := "NAME\tAVAILABLE API"

/-- The pieces of a row. -/
def row (entry : String) (schemas : List String) : List String :=
  [entry, "\t", String.intercalate "\t" schemas]

/-- The entries to list. A single entry that cannot be read counts as missing. -/
def select (partition : Partition) : Option String → Client (List CatalogEntry)
  | some name => do
    match ← Client.act (.call (.getEntry partition name)) with
    | .ok entry => return [entry]
    | .error _ => Client.fail (.entryNotFound partition.path name)
  | none => do
    match ← Client.act (.call (.listEntries partition)) with
    | .ok entries => return entries
    | .error source => Client.fail (.listFailed partition.path source)

/-- The schema identifiers of the export that a reference names. -/
def schemas (reference : ExportReference) : Client (Except ClientError (List String)) := do
  match Partition.ofString reference.path with
  | .error e => return .error (.exportLookup reference.display (.invalid exportKind e.message))
  | .ok partition =>
    match ← Client.act (.call (.getExport partition none reference.exportName)) with
    | .ok e => return .ok e.schemas
    | .error source => return .error (.exportLookup reference.display source)

/-- Shows the row of one reference, or gives the error that there is instead. -/
def show? (entry : String) (reference : ExportReference) : Client (Option ClientError) := do
  match ← schemas reference with
  | .error e => return some e
  | .ok schemas =>
    match ← Client.act (.write (row entry schemas ++ ["\n"])) with
    | .ok () => return none
    | .error reason => return some (.output reason)

/-- Shows the rows in order and collects the errors. -/
def showAll : List (String × ExportReference) → Client (List ClientError)
  | [] => return []
  | (entry, reference) :: rest => do
    let error ← show? entry reference
    let errors ← showAll rest
    return error.toList ++ errors

/-- The references of the entries, each with the name of its entry. -/
def references (entries : List CatalogEntry) : List (String × ExportReference) :=
  entries.flatMap fun entry => entry.exports.map fun reference => (entry.name, reference)

def run (o : Options) : Client Unit := do
  match o.validate with
  | .error e => Client.fail e
  | .ok partition =>
    Client.print [header]
    let entries ← select partition o.entry
    let errors ← showAll (references entries)
    Client.flush
    Client.conclude errors

end ApiCatalog.Listing
