import Mathlib.Data.List.AList
import Mathlib.Data.Nat.Notation
import Mathlib.Tactic.Common

/-!
# Strings and string maps as Go has them

The functions of Go's `strings` package that the driver uses, and its `map[string]string`. Requests
arrive as protocol buffers, whose strings are valid UTF-8; a string is the list of its runes. A map
is an association list without repeated keys; its list order stands for an iteration order, of which
Go promises nothing.
-/

set_option autoImplicit false

namespace LustreCsi.Model

/-- `map[string]string`. -/
abbrev StrMap : Type := AList fun _ : String => String

/-- Equality of maps, decided on their entries; unlike the instance for `AList` it evaluates. -/
instance decidableEqStrMap : DecidableEq StrMap := fun m m' =>
  decidable_of_iff (m.entries = m'.entries) AList.ext_iff.symm

/-- `m[k]`, which is the empty string when `k` is missing. -/
def StrMap.get (m : StrMap) (k : String) : String := (m.lookup k).getD ""

/-- The Unicode tables of lower-case mappings and of lower-case letters (`\p{Ll}`), known here
on the ASCII range only. -/
structure Unicode where
  toLower : Char → Char
  toLower_ascii : ∀ c : Char, c.toNat < 128 → toLower c = c.toLower
  isLower : Char → Bool
  isLower_ascii : ∀ c : Char, c.toNat < 128 → isLower c = c.isLower

/-- The tables that know ASCII letters only. -/
def Unicode.asciiOnly : Unicode := ⟨Char.toLower, fun _ _ => rfl, Char.isLower, fun _ _ => rfl⟩

/-- `strings.ToLower`. -/
def toLower (U : Unicode) (s : String) : String := String.ofList (s.toList.map U.toLower)

/-- `strings.Split(s, sep)` for a one-character separator. -/
def split (s : String) (sep : Char) : List String := (s.toList.splitOn sep).map String.ofList

/-- `strings.ReplaceAll(s, old, new)` for single characters. -/
def replaceAll (s : String) (old new : Char) : String :=
  String.ofList (s.toList.map fun c => if c = old then new else c)

/-- `unicode.IsSpace`. -/
def isSpace (c : Char) : Bool :=
  c.toNat ∈ [0x09, 0x0A, 0x0B, 0x0C, 0x0D, 0x20, 0x85, 0xA0, 0x1680, 0x2028, 0x2029, 0x202F,
    0x205F, 0x3000] || (0x2000 ≤ c.toNat && c.toNat ≤ 0x200A)

/-- `strings.TrimSpace`. -/
def trimSpace (s : String) : String :=
  String.ofList ((s.toList.dropWhile isSpace).reverse.dropWhile isSpace).reverse

/-- The bytes of a string. -/
def bytes (s : String) : List UInt8 := s.toList.flatMap String.utf8EncodeChar

/-- The class `[^/]` of the regular expressions. -/
def notSlash (c : Char) : Bool := c != '/'

/-- `strings.HasPrefix(s, p)`. -/
def hasPrefix (s p : String) : Bool := p.toList.isPrefixOf s.toList

/-- `strings.TrimPrefix(s, p)`. -/
def trimPrefix (s p : String) : String :=
  if hasPrefix s p then String.ofList (s.toList.drop p.toList.length) else s

/-- `strings.HasSuffix(s, p)`. -/
def hasSuffix (s p : String) : Bool := p.toList.isSuffixOf s.toList

/-- `strings.TrimSuffix(s, p)`. -/
def trimSuffix (s p : String) : String :=
  if hasSuffix s p then String.ofList (s.toList.take (s.toList.length - p.toList.length)) else s

/-- `strings.ContainsAny(s, chars)`. -/
def containsAny (s chars : String) : Bool := s.toList.any fun c => chars.toList.contains c

/-- `strings.Contains(s, t)`. -/
def contains (s t : String) : Bool := s.toList.tails.any fun r => t.toList.isPrefixOf r

/-- `strings.EqualFold(s, "true")`: no rune outside ASCII folds to a letter of "true". -/
def equalFoldTrue (s : String) : Bool := s.toList.map Char.toLower = "true".toList

/-- The `%v` verb on a map of at most one entry. -/
def printMap (m : StrMap) : String :=
  "map[" ++ " ".intercalate (m.entries.map fun e => s!"{e.1}:{e.2}") ++ "]"

/-- The `%+v` verb on a list of strings. -/
def printList (l : List String) : String := "[" ++ " ".intercalate l ++ "]"

/-! ## Normalised parameter maps -/

/-- SOURCE: pkg/csi_driver/controller.go:40-41 -/
def csiPrefixKubernetesStorage : String := "csi.storage.k8s.io"

def storagePrefixKubernetes : String := "storage.kubernetes.io"

/-- SOURCE: pkg/csi_driver/controller.go:55, 69-71 -/
def keyFilesystem : String := "filesystem"

def keyInstanceIP : String := "ip"

def keyMountPoint : String := "mountpoint"

def keyIAMAccessControlEnabled : String := "iam_access_control_enabled"

/-- SOURCE: pkg/csi_driver/node.go:49-53 -/
def keyServiceAccount : String := "csi.storage.k8s.io/serviceAccount.name"

def keyPodNamespace : String := "csi.storage.k8s.io/pod.namespace"

def keyServiceToken : String := "csi.storage.k8s.io/serviceAccount.tokens"

def keyPodUID : String := "csi.storage.k8s.io/pod.uid"

/-- SOURCE: pkg/csi_driver/controller.go:44-52 -/
def keyPVCName : String := "csi.storage.k8s.io/pvc/name"

def keyPVCNamespace : String := "csi.storage.k8s.io/pvc/namespace"

def keyPVName : String := "csi.storage.k8s.io/pv/name"

def keyDescription : String := "description"

def keyLabels : String := "labels"

def keyNetwork : String := "network"

def keyPerUnitStorageThroughput : String := "perunitstoragethroughput"

/-- SOURCE: pkg/csi_driver/controller.go:81-87 -/
def paramKeys : List String :=
  [keyDescription, keyLabels, keyNetwork, keyFilesystem, keyPerUnitStorageThroughput]

/-- SOURCE: pkg/csi_driver/controller.go:89-94 -/
def volumeAttributes : List String :=
  [keyInstanceIP, keyFilesystem, keyMountPoint, keyIAMAccessControlEnabled]

/-- Drop dashes and underscores (`strings.ReplaceAll` by nothing), and lower the case.
SOURCE: pkg/csi_driver/utils.go:142-148 -/
def normalize (U : Unicode) (input : String) : String :=
  String.ofList (((input.toList.filter (· ≠ '-')).filter (· ≠ '_')).map U.toLower)

/-- What the loop of `normalizeKeys` has collected. -/
structure Normalized where
  processed : StrMap
  unsupported : List String
  duplicate : List String

/-- One iteration of the loop of `normalizeKeys`.
SOURCE: pkg/csi_driver/utils.go:75-91 -/
def normalizeKey (U : Unicode) (supported : List String) (acc : Normalized)
    (entry : Sigma fun _ : String => String) : Normalized :=
  let normalizedKey := normalize U entry.1
  -- Keys that Kubernetes adds are not validated.
  let isK8sKey := hasPrefix normalizedKey csiPrefixKubernetesStorage ||
    hasPrefix normalizedKey storagePrefixKubernetes
  { processed := acc.processed.insert normalizedKey entry.2
    unsupported := if normalizedKey ∉ supported ∧ !isK8sKey then acc.unsupported ++ [entry.1]
      else acc.unsupported
    duplicate := if normalizedKey ∈ acc.processed then acc.duplicate ++ [entry.1]
      else acc.duplicate }

/-- SOURCE: pkg/csi_driver/utils.go:70-102 -/
def normalizeKeys (U : Unicode) (input : StrMap) (supported : List String) :
    Except String StrMap :=
  let acc := input.entries.foldl (normalizeKey U supported) ⟨∅, [], []⟩
  if acc.unsupported ≠ [] then .error s!"unsupported keys: {printList acc.unsupported}"
  else if acc.duplicate ≠ [] then .error s!"duplicate keys: {printList acc.duplicate}"
  else .ok acc.processed

/-- SOURCE: pkg/csi_driver/utils.go:105-117 -/
def normalizeVolumeContext (U : Unicode) (input : StrMap) : Except String StrMap :=
  match normalizeKeys U input (volumeAttributes.map (normalize U)) with
  | .error err => .error s!"failed to process volume context: {err}"
  | .ok processed => .ok processed

/-- SOURCE: pkg/csi_driver/utils.go:120-132 -/
def normalizeParams (U : Unicode) (input : StrMap) : Except String StrMap :=
  match normalizeKeys U input (paramKeys.map (normalize U)) with
  | .error err => .error s!"failed to process parameters: {err}"
  | .ok processed => .ok processed

end LustreCsi.Model
