import Mathlib.Data.Finset.Basic
import Mathlib.Data.List.DropRight
import Votport.Admin.Fields
import Votport.Foundation.Json
import Votport.Store.Audit

/-!
# Patches of a group

A patch of a group is a list of operations.  Each operation is first reduced to what it does to four
accumulators: a name, members to add, members to remove, and a list in place of the members.  The
name and the list are then written by one transaction, the additions and the removals by another.
The folding of letters beyond ASCII is a parameter.
-/

namespace Votport.Admin

variable {ν : Type*}

/-! ### Requests -/

/-- A refusal, with its status, its text and its kind. -/
structure ScimError where
  status : Nat
  detail : String
  scimType : Option String
deriving DecidableEq, Repr

/-- `ScimError::typed`. -/
def ScimError.typed (status : Nat) (scimType detail : String) : ScimError :=
  ⟨status, detail, some scimType⟩

/-- `ScimError::invalid_value`. -/
def ScimError.invalidValue (detail : String) : ScimError := typed 400 "invalidValue" detail

/-- `ScimError::store`. -/
def ScimError.store (_ : String) : ScimError := ⟨503, "database unavailable; try again", none⟩

/-- The value under a key of an object. -/
def jsonGet (key : String) : Json ν → Option (Json ν)
  | .obj entries => (entries.find? fun entry => decide (entry.1 = key)).map Prod.snd
  | _ => none

/-- The text that a value is. -/
def jsonStr : Json ν → Option String
  | .str text => some text
  | _ => none

/-- The items of a value that is a list. -/
def jsonItems : Json ν → Option (List (Json ν))
  | .arr items => some items
  | _ => none

/-- `admit_display_name`. -/
def admitDisplayName (value : Option (Json ν)) : Except ScimError String :=
  match ((value.bind jsonStr).map trim).filter (· ≠ "") with
  | none => .error (.invalidValue "displayName is required")
  | some name =>
      if 256 < name.utf8ByteSize ∨ name.toList.any isControl = true then
        .error (.invalidValue "displayName is not acceptable")
      else .ok name

/-- `str::to_lowercase`. -/
structure GroupEnv where
  toLowercase : String → String

/-- The subject that an entry of a list of members names. -/
def admitMember (env : GroupEnv) (entry : Json ν) : Except ScimError String :=
  match (((jsonGet "value" entry).bind jsonStr).map trim).filter (· ≠ "") with
  | none => .error (.invalidValue "each member needs a value")
  | some subject =>
      let subject := env.toLowercase subject
      if 600 < subject.utf8ByteSize ∨ subject.toList.any isControl = true then
        .error (.invalidValue "member value is not acceptable")
      else .ok subject

/-- `admit_members`. -/
def admitMembers (env : GroupEnv) : Option (Json ν) → Except ScimError (List String)
  | none => .ok []
  | some value =>
      match jsonItems value with
      | none => .error (.invalidValue "members must be a list")
      | some entries => entries.mapM (admitMember env)

/-- `str::strip_prefix`. -/
def stripStart (start text : List Char) : Option (List Char) :=
  if start <+: text then some (text.drop start.length) else none

/-- `str::strip_suffix`. -/
def stripEnd (stop text : List Char) : Option (List Char) :=
  if stop <:+ text then some (text.take (text.length - stop.length)) else none

/-- `str::trim`, of characters. -/
def trimChars (text : List Char) : List Char :=
  (text.dropWhile isWhiteSpace).rdropWhile isWhiteSpace

/-- The subject in `members[value eq "subject"]`. -/
def filterSubject (path : String) : Option String := do
  let rest ← stripStart "members[".toList path.toList
  let rest ← stripEnd "]".toList rest
  let rest ← stripStart "value".toList (trimChars rest)
  let rest ← stripStart "eq".toList (rest.dropWhile isWhiteSpace)
  let rest ← stripStart "\"".toList (trimChars rest)
  let subject ← stripEnd "\"".toList rest
  if subject ≠ [] ∧ '"' ∉ subject then some (String.ofList subject) else none

/-- `eq_ignore_ascii_case`. -/
def eqIgnoreAsciiCase (a b : String) : Bool := decide (sqliteLower a = sqliteLower b)

/-! ### Operations -/

/-- `GroupPatch`. -/
structure GroupPatch where
  displayName : Option String
  add : List String
  remove : List String
  replaceMembers : Option (List String)
deriving DecidableEq, Repr

/-- `GroupPatch::default`. -/
def GroupPatch.empty : GroupPatch := ⟨none, [], [], none⟩

/-- The refusal of an operation that is not supported. -/
def unsupportedOperation : ScimError := .typed 400 "invalidSyntax" "unsupported operation"

/-- The operation in lowercase letters of ASCII. -/
def operationName (operation : Json ν) : String :=
  String.ofList (sqliteLower (((jsonGet "op" operation).bind jsonStr).getD ""))

/-- `patch_group_operation`. -/
def patchGroupOperation (env : GroupEnv) (patch : GroupPatch) (operation : Json ν) :
    Except ScimError GroupPatch :=
  let op := operationName operation
  let value := jsonGet "value" operation
  if op = "replace" ∨ op = "add" then
    match ((jsonGet "path" operation).bind jsonStr).map trim with
    | none =>
        match value with
        | some (.obj entries) => do
            let patch ← match jsonGet "displayName" (.obj entries) with
              | none => .ok patch
              | some name => do
                  let name ← admitDisplayName (some name)
                  .ok { patch with displayName := some name }
            match jsonGet "members" (.obj entries) with
            | none => .ok patch
            | some members => do
                let members ← admitMembers env (some members)
                if op = "replace" then .ok { patch with replaceMembers := some members }
                else .ok { patch with add := patch.add ++ members }
        | _ => .error (.typed 400 "invalidValue" "a pathless operation needs a value object")
    | some path =>
        if eqIgnoreAsciiCase path "displayName" = true then do
          let name ← admitDisplayName value
          .ok { patch with displayName := some name }
        else if eqIgnoreAsciiCase path "members" = true then do
          let members ← admitMembers env value
          if op = "replace" then .ok { patch with replaceMembers := some members }
          else .ok { patch with add := patch.add ++ members }
        else .error unsupportedOperation
  else if op = "remove" then
    match ((jsonGet "path" operation).bind jsonStr).map trim with
    | none => .error unsupportedOperation
    | some path =>
        if eqIgnoreAsciiCase path "members" = true then
          match value with
          | none => .ok { patch with replaceMembers := some [] }
          | some value => do
              let members ← admitMembers env (some value)
              .ok { patch with remove := patch.remove ++ members }
        else
          match filterSubject path with
          | none =>
              .error (.typed 400 "invalidPath"
                "remove supports members or members[value eq \"id\"]")
          | some subject => .ok { patch with remove := patch.remove ++ [subject] }
  else .error unsupportedOperation

/-! ### The store -/

/-- A group, with the rows of its members. -/
@[ext]
structure GroupRow where
  displayName : String
  members : Finset String
deriving DecidableEq

/-- What goes wrong in the store: in the first transaction, in the second, and when the group is
read afterwards. -/
structure StoreFaults where
  first : Option String
  second : Option String
  read : Option String

/-- The stored subject is the removed one, up to the case of ASCII letters. -/
def sameSubject (stored removed : String) : Prop := sqliteLower stored = sqliteLower removed

instance (stored removed : String) : Decidable (sameSubject stored removed) :=
  inferInstanceAs (Decidable (_ = _))

/-- `SCIM_GROUP_NAME_TAKEN`. -/
def scimGroupNameTaken : String := "scim group name taken"

/-- `replace_scim_group`, where other groups have the names `others`. -/
def replaceScimGroup (others : Finset String) (fault : Option String) (row : GroupRow)
    (displayName : Option String) (members : Option (List String)) : Except String GroupRow :=
  match fault with
  | some error => .error error
  | none =>
      if displayName.any (· ∈ others) = true then .error scimGroupNameTaken
      else .ok
        { displayName := displayName.getD row.displayName
          members := (members.map List.toFinset).getD row.members }

/-- `change_scim_group_members`. -/
def changeScimGroupMembers (fault : Option String) (row : GroupRow) (add remove : List String) :
    Except String GroupRow :=
  match fault with
  | some error => .error error
  | none => .ok
      { row with
        members := (row.members ∪ add.toFinset).filter fun m => ¬ ∃ s ∈ remove, sameSubject m s }

/-- `name_taken`. -/
def nameTaken (error : String) : ScimError :=
  if error = scimGroupNameTaken then .typed 409 "uniqueness" "displayName already exists"
  else .store error

/-- The first transaction, where there is something for it. -/
def GroupPatch.writeFirst (patch : GroupPatch) (others : Finset String) (faults : StoreFaults)
    (row : GroupRow) : Except String GroupRow :=
  if patch.displayName.isSome = true ∨ patch.replaceMembers.isSome = true then
    replaceScimGroup others faults.first row patch.displayName patch.replaceMembers
  else .ok row

/-- The second transaction, where there is something for it. -/
def GroupPatch.writeSecond (patch : GroupPatch) (faults : StoreFaults) (row : GroupRow) :
    Except String GroupRow :=
  if patch.add = [] ∧ patch.remove = [] then .ok row
  else changeScimGroupMembers faults.second row patch.add patch.remove

/-- The operations of a patch, or the refusal of one without. -/
def patchOperations (body : Json ν) : Except ScimError (List (Json ν)) :=
  match (jsonGet "Operations" body).bind jsonItems with
  | none => .error (.typed 400 "invalidSyntax" "Operations is required")
  | some operations => .ok operations

/-- What an accepted patch does: the answer, and the group afterwards. -/
def GroupPatch.write (patch : GroupPatch) (others : Finset String) (faults : StoreFaults)
    (row : GroupRow) : Except ScimError GroupRow × GroupRow :=
  match patch.writeFirst others faults row with
  | .error error => (.error (nameTaken error), row)
  | .ok first =>
      match patch.writeSecond faults first with
      | .error error => (.error (.store error), first)
      | .ok second =>
          match faults.read with
          | some error => (.error (.store error), second)
          | none => (.ok second, second)

/-- `patch_group`, of a group that is there: the answer, and the group afterwards. -/
def patchGroup (env : GroupEnv) (others : Finset String) (faults : StoreFaults) (row : GroupRow)
    (body : Json ν) : Except ScimError GroupRow × GroupRow :=
  match patchOperations body with
  | .error error => (.error error, row)
  | .ok operations =>
      match operations.foldlM (patchGroupOperation env) .empty with
      | .error error => (.error error, row)
      | .ok patch => patch.write others faults row

end Votport.Admin
