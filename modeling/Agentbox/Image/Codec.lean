import Agentbox.Image.State
import Agentbox.Lib.Json

/-! # The text of a recorded state

Reading and writing of states as JSON objects whose values are strings and numbers: a `Serde` that
can be run. -/

namespace Agentbox.Image.Codec

open Agentbox.Lib.Json Agentbox.Image.State

def encodeState (state : RuntimeImageState) : String :=
  encodeObject ("runtime", .string state.runtime)
    [("package", .string state.package),
     ("install_source", .string state.installSource),
     ("image", .string state.image),
     ("image_context_hash", .string state.imageContextHash),
     ("installed_version", .string state.installedVersion),
     ("latest_seen_version", .string state.latestSeenVersion),
     ("latest_checked_at", .number state.latestCheckedAt.toNat),
     ("image_built_at", .number state.imageBuiltAt.toNat)]

def field (members : List (String × Scalar)) (name : String) : Except String Scalar :=
  match members.filter fun m => m.1 == name with
  | [] => .error ("missing field `" ++ name ++ "`")
  | [m] => .ok m.2
  | _ => .error ("duplicate field `" ++ name ++ "`")

def stringField (members : List (String × Scalar)) (name : String) : Except String String :=
  match field members name with
  | .ok (.string s) => .ok s
  | .ok (.number _) => .error "invalid type: integer, expected a string"
  | .error error => .error error

def u64Field (members : List (String × Scalar)) (name : String) : Except String UInt64 :=
  match field members name with
  | .ok (.number n) =>
    if n < 2 ^ 64 then .ok (UInt64.ofNat n) else .error "invalid value: integer, expected u64"
  | .ok (.string _) => .error "invalid type: string, expected u64"
  | .error error => .error error

def decodeState (text : String) : Except String RuntimeImageState := do
  if text = "" then throw "EOF while parsing a value at line 1 column 0"
  match decodeObject text with
  | none => throw "expected an object of strings and numbers"
  | some members =>
    let runtime ← stringField members "runtime"
    let package ← stringField members "package"
    let installSource ← stringField members "install_source"
    let image ← stringField members "image"
    let imageContextHash ← stringField members "image_context_hash"
    let installedVersion ← stringField members "installed_version"
    let latestSeenVersion ← stringField members "latest_seen_version"
    let latestCheckedAt ← u64Field members "latest_checked_at"
    let imageBuiltAt ← u64Field members "image_built_at"
    return { runtime, package, installSource, image, imageContextHash, installedVersion,
             latestSeenVersion, latestCheckedAt, imageBuiltAt }

theorem u64Field_of_field {members : List (String × Scalar)} {name : String} {n : UInt64}
    (h : field members name = .ok (.number n.toNat)) : u64Field members name = .ok n := by
  rw [u64Field, h]
  simp only [if_pos n.toNat_lt, UInt64.ofNat_toNat]

theorem decodeState_encodeState (state : RuntimeImageState) :
    decodeState (encodeState state ++ "\n") = .ok state := by
  have hne : encodeState state ++ "\n" ≠ "" := by
    intro h
    have hend := congrArg String.toList h
    rw [String.toList_append] at hend
    exact absurd (List.append_eq_nil_iff.1 hend).2 (by decide)
  rw [decodeState, if_neg hne, encodeState, decodeObject_encodeObject]
  generalize hmembers : _ :: _ = members
  have hchecked : u64Field members "latest_checked_at" = .ok state.latestCheckedAt :=
    u64Field_of_field (hmembers ▸ rfl)
  have hbuilt : u64Field members "image_built_at" = .ok state.imageBuiltAt :=
    u64Field_of_field (hmembers ▸ rfl)
  simp only [hchecked, hbuilt]
  rw [← hmembers]
  rfl

/-- `serde_json` at states whose texts are flat objects. -/
def flatSerde : Serde where
  toStringPretty := encodeState
  fromStr := decodeState
  fromStr_toStringPretty := decodeState_encodeState

end Agentbox.Image.Codec
