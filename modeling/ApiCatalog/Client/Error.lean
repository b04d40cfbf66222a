import ApiCatalog.Store.Error
import ApiCatalog.Text.Quoted

/-!
# Errors of the clients

What listing and binding report. Failures that do not stop a client are collected and reported
together.
-/
namespace ApiCatalog

inductive ClientError where
  | missingWorkspace
  | invalidWorkspace (path : String)
  | invalidEntryReference (reference : String)
  | entryNotFound (partition name : String)
  | listFailed (partition : String) (source : StoreError)
  | exportLookup (reference : String) (source : StoreError)
  | bindFailed (entry reason : String)
  | store (source : StoreError)
  | output (reason : String)
  | config (path reason : String)
  | aggregate (errors : List ClientError)
  deriving Repr, Inhabited

namespace ClientError

mutual

def message : ClientError → String
  | missingWorkspace => "workspace path of the catalog is a required argument"
  | invalidWorkspace path =>
    "fully qualified reference to workspace where catalog exists is required. " ++
      "The format is `root:<catalog_ws>`: " ++ path
  | invalidEntryReference reference =>
    "fully qualified reference to workspace where catalog entry exists is required. " ++
      "The format is `root:<ws>:<catalogentry>`: " ++ reference
  | entryNotFound partition name =>
    "error finding the specified catalogentry " ++ Text.quoted name ++ " in workspace " ++
      Text.quoted partition
  | listFailed partition source =>
    "error listing catalog entries in workspace " ++ Text.quoted partition ++ ": " ++ source.message
  | exportLookup reference source =>
    "error getting export " ++ reference ++ ": " ++ source.message
  | bindFailed entry reason =>
    "bindings for catalog entry " ++ entry ++ " could not be created successfully: " ++ reason
  | store source => source.message
  | output reason => "failed to write output: " ++ reason
  | config path reason => "failed to load config from " ++ path ++ ": " ++ reason
  | aggregate [] => "[]"
  | aggregate [e] => e.message
  | aggregate (e :: f :: rest) => "[" ++ e.message ++ ", " ++ f.message ++ messages rest ++ "]"

/-- Further messages of a list, each after a comma. -/
def messages : List ClientError → String
  | [] => ""
  | e :: rest => ", " ++ e.message ++ messages rest

end

/-- No error at all, or all of them together. -/
def all : List ClientError → Except ClientError Unit
  | [] => .ok ()
  | e :: rest => .error (.aggregate (e :: rest))

end ClientError
end ApiCatalog
