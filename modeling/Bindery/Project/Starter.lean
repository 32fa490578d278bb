/-
# Bindery.Project.Starter -- the files of a new project.

A new project gets a manifest that spells out the defaults, a function catalog with the three
signature functions, and a parameter catalog with the levels of one scheme.
-/
import Bindery.Project.Manifest
import Bindery.Source.Layout

namespace Bindery.Starter

open Source

/-- The manifest of a new project. -/
def manifest : Manifest where
  catalog := { functions := "scripts/ffi_api.json", parameters := "scripts/parameter_sets.json" }
  selfTest := { message := some SelfTest.defaultMessage }

/-- The text of the manifest. -/
def manifestText : String :=
  ofLines [
    "[catalog]",
    "functions = \"scripts/ffi_api.json\"",
    "parameters = \"scripts/parameter_sets.json\"",
    "",
    "[output]",
    "dir = \"src/ffi\"",
    "path = \"\x7bmodule\x7d.rs\"",
    "skip = []",
    "uses = [\"use super::*;\"]",
    "",
    "[self_test]",
    "enabled = true",
    "message = \"hello world\"",
    "",
    "[check]",
    "extern_dir = \"extern\""]

/-- The text of the manifest holds the manifest. -/
theorem parse_manifestText : Manifest.parse manifestText = some manifest := by
  decide +kernel

/-- The text of the function catalog. -/
def functionsText : String :=
  ofLines [
    "\x7b",
    "  \"api\": [",
    "    \x7b",
    "      \"name\": \"crypto_sign_keypair\",",
    "      \"args\": [[\"pk\", \"*mut u8\"], [\"sk\", \"*mut u8\"]],",
    "      \"return\": \"c_int\"",
    "    \x7d,",
    "    \x7b",
    "      \"name\": \"crypto_sign_signature\",",
    "      \"args\": [[\"sig\", \"*mut u8\"], [\"siglen\", \"*mut size_t\"], " ++
      "[\"m\", \"*const u8\"], [\"mlen\", \"size_t\"], [\"sk\", \"*const u8\"]],",
    "      \"return\": \"c_int\"",
    "    \x7d,",
    "    \x7b",
    "      \"name\": \"crypto_sign_verify\",",
    "      \"args\": [[\"sig\", \"*const u8\"], [\"siglen\", \"size_t\"], " ++
      "[\"m\", \"*const u8\"], [\"mlen\", \"size_t\"], [\"pk\", \"*const u8\"]],",
    "      \"return\": \"c_int\"",
    "    \x7d",
    "  ]",
    "\x7d"]

/-- The text of the parameter catalog. -/
def parametersText : String :=
  ofLines [
    "\x7b",
    "  \"scheme\": \"dilithium\",",
    "  \"namespace\": \"PQCLEAN\",",
    "  \"parameter_sets\": [",
    "    \x7b \"security_level\": 2, \"publickey_bytes\": 1312, " ++
      "\"secretkey_bytes\": 2528, \"signature_bytes\": 2420,",
    "      \"implementations\": [\"clean\", \"avx2\", \"aarch64\"] \x7d,",
    "    \x7b \"security_level\": 3, \"publickey_bytes\": 1952, " ++
      "\"secretkey_bytes\": 4000, \"signature_bytes\": 3293,",
    "      \"implementations\": [\"clean\", \"avx2\", \"aarch64\"] \x7d,",
    "    \x7b \"security_level\": 5, \"publickey_bytes\": 2592, " ++
      "\"secretkey_bytes\": 4864, \"signature_bytes\": 4595,",
    "      \"implementations\": [\"clean\", \"avx2\", \"aarch64\"] \x7d",
    "  ]",
    "\x7d"]

end Bindery.Starter
