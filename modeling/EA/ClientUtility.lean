import EA.DiscoveryMessages

namespace EA

open ByteString

inductive StatusCode where
  | alreadyExists | notFound | invalidArgument | dataLoss | unavailable | unknown
  | other (code : Nat)
deriving DecidableEq

/-- A `turbo::Status` other than OK. -/
structure Status where
  code : StatusCode
  message : Bytes := []
deriving DecidableEq

/-- The string functions the client takes from the turbo library. -/
structure StringLib where
  strSplit : Bytes → List Bytes
  simpleAtoi : Bytes → Option Int
  strToLower : Bytes → Bytes

/-- The numbers of the `ConfigType` enumerators, which are generated. -/
structure ConfigTypes where
  cfJson : Int
  cfText : Int
  cfIni : Int
  cfYaml : Int
  cfXml : Int
  cfGflags : Int
  cfToml : Int

def configTypeToString (types : ConfigTypes) (type : Int) : Bytes :=
  if type = types.cfJson then ascii "json"
  else if type = types.cfText then ascii "text"
  else if type = types.cfIni then ascii "ini"
  else if type = types.cfYaml then ascii "yaml"
  else if type = types.cfXml then ascii "xml"
  else if type = types.cfGflags then ascii "gflags"
  else if type = types.cfToml then ascii "toml"
  else ascii "unknown format"

def stringToConfigType (lib : StringLib) (types : ConfigTypes) (str : Bytes) :
    Except Status Int :=
  let lc := lib.strToLower str
  if lc = ascii "json" then .ok types.cfJson
  else if lc = ascii "text" then .ok types.cfText
  else if lc = ascii "ini" then .ok types.cfIni
  else if lc = ascii "yaml" then .ok types.cfYaml
  else if lc = ascii "xml" then .ok types.cfXml
  else if lc = ascii "gflags" then .ok types.cfGflags
  else if lc = ascii "toml" then .ok types.cfToml
  else .error ⟨.invalidArgument, ascii "unknown format '" ++ str ++ ascii "'"⟩

def versionError : Status := ⟨.invalidArgument, ascii "version error, should be like 1.2.3"⟩

/-- Both `string_to_version` and `string_to_module_version`. -/
def stringToVersion (lib : StringLib) (str : Bytes) : Except Status ModuleVersion :=
  match lib.strSplit str with
  | [major, minor, patch] =>
    match lib.simpleAtoi major, lib.simpleAtoi minor, lib.simpleAtoi patch with
    | some ma, some mi, some pa => .ok ⟨ma, mi, pa⟩
    | _, _, _ => .error versionError
  | _ => .error versionError

/-- `AllowChar`: its upper-case letters miss the `W`. -/
def allowChar (c : UInt8) : Bool :=
  (97 ≤ c && c ≤ 122) || (48 ≤ c && c ≤ 57) || c = 95 || (65 ≤ c && c ≤ 90 && c ≠ 87)

def notAllowed (ns : Bytes) (i : Nat) (c : UInt8) : Status :=
  ⟨.invalidArgument, ascii "the " ++ decimal i ++ ascii " char " ++ [c] ++ ascii " of " ++ ns ++
    ascii " is not allow used in name the valid set is[a-z,A-Z,0-9,_]"⟩

def checkValidNameType (ns : Bytes) : Except Status Unit :=
  match ns.findIdx? (fun c => !allowChar c) with
  | none => .ok ()
  | some i => .error (notAllowed ns i (ns.getD i 0))

end EA
