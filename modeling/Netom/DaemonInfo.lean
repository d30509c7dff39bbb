import Mathlib.Data.List.Basic

/-!
# The configuration that the daemon shows

`redact_toml` parses the configuration, replaces what stands under a secret key at any depth, and
prints the rest.

* `redactValue`  the walk over the parsed document;
* `Alike`  two documents differ under secret keys only;
* `redactToml_hides`  **documents that are alike are shown as one text, which reads back as a
  document like them; what does not parse is not shown.**
-/

namespace Netom.DaemonInfo

/-- `toml::Value` -/
inductive Value where
  | string (s : String)
  | integer (n : Int)
  | float (bits : BitVec 64)
  | boolean (b : Bool)
  | datetime (text : String)
  | array (items : List Value)
  | table (entries : List (String × Value))

def redactedKeys : List String := ["md5_key", "password"]

def redacted : String := "<redacted>"

mutual
def redactValue : Value → Value
  | .table entries => .table (redactEntries entries)
  | .array items => .array (redactItems items)
  | v => v

def redactEntries : List (String × Value) → List (String × Value)
  | [] => []
  | (key, val) :: rest =>
    (key, if key ∈ redactedKeys then .string redacted else redactValue val) :: redactEntries rest

def redactItems : List Value → List Value
  | [] => []
  | val :: rest => redactValue val :: redactItems rest
end

/-- the TOML library over texts of type `T` -/
structure Toml (T : Type) where
  parse : T → Option Value
  print : Value → Option T
  /-- the documents that a text can say: no key twice in a table, numbers and dates in range -/
  Held : Value → Prop
  parse_held : ∀ {text v}, parse text = some v → Held v
  /-- a string can stand in the place of any value -/
  held_redact : ∀ {v}, Held v → Held (redactValue v)
  parse_print : ∀ {v}, Held v → ∃ text, print v = some text ∧ parse text = some v

def redactToml {T : Type} (toml : Toml T) (input : T) : Option T :=
  (toml.parse input).bind fun value => toml.print (redactValue value)

mutual
inductive Alike : Value → Value → Prop
  | same (v : Value) : Alike v v
  | array {a b : List Value} (h : AlikeItems a b) : Alike (.array a) (.array b)
  | table {a b : List (String × Value)} (h : AlikeEntries a b) : Alike (.table a) (.table b)

inductive AlikeItems : List Value → List Value → Prop
  | nil : AlikeItems [] []
  | cons {v w : Value} {a b : List Value} (h : Alike v w) (hs : AlikeItems a b) :
    AlikeItems (v :: a) (w :: b)

inductive AlikeEntries : List (String × Value) → List (String × Value) → Prop
  | nil : AlikeEntries [] []
  | secret {key : String} (hk : key ∈ redactedKeys) (v w : Value) {a b : List (String × Value)}
    (hs : AlikeEntries a b) : AlikeEntries ((key, v) :: a) ((key, w) :: b)
  | cons (key : String) {v w : Value} (h : Alike v w) {a b : List (String × Value)}
    (hs : AlikeEntries a b) : AlikeEntries ((key, v) :: a) ((key, w) :: b)
end

/-! ## one text for documents that are alike -/

mutual
lemma redactValue_eq {v w : Value} : Alike v w → redactValue v = redactValue w
  | .same _ => rfl
  | .array h => by rw [redactValue, redactValue, redactItems_eq h]
  | .table h => by rw [redactValue, redactValue, redactEntries_eq h]

lemma redactItems_eq {a b : List Value} : AlikeItems a b → redactItems a = redactItems b
  | .nil => rfl
  | .cons h hs => by rw [redactItems, redactItems, redactValue_eq h, redactItems_eq hs]

lemma redactEntries_eq {a b : List (String × Value)} :
    AlikeEntries a b → redactEntries a = redactEntries b
  | .nil => rfl
  | .secret hk v w hs => by
    rw [redactEntries, redactEntries, if_pos hk, if_pos hk, redactEntries_eq hs]
  | .cons key h hs => by rw [redactEntries, redactEntries, redactValue_eq h, redactEntries_eq hs]
end

/-! ## the rest is as it was -/

mutual
lemma alike_redactValue : (v : Value) → Alike v (redactValue v)
  | .table entries => .table (alike_redactEntries entries)
  | .array items => .array (alike_redactItems items)
  | .string _ | .integer _ | .float _ | .boolean _ | .datetime _ => .same _

lemma alike_redactItems : (a : List Value) → AlikeItems a (redactItems a)
  | [] => .nil
  | v :: a => .cons (alike_redactValue v) (alike_redactItems a)

lemma alike_redactEntries : (a : List (String × Value)) → AlikeEntries a (redactEntries a)
  | [] => .nil
  | (key, v) :: a => by
    rw [redactEntries]
    by_cases hk : key ∈ redactedKeys
    · exact .secret hk _ _ (alike_redactEntries a)
    · rw [if_neg hk]
      exact .cons key (alike_redactValue v) (alike_redactEntries a)
end

/-- **what is shown does not depend on the secrets, and shows all the rest** -/
theorem redactToml_hides {T : Type} (toml : Toml T) (input : T) :
    (toml.parse input = none → redactToml toml input = none) ∧
    ∀ v, toml.parse input = some v →
      (∃ text shown, redactToml toml input = some text ∧ toml.parse text = some shown ∧
        Alike v shown) ∧
      ∀ input' v', toml.parse input' = some v' → Alike v v' →
        redactToml toml input' = redactToml toml input := by
  unfold redactToml
  refine ⟨fun h => by rw [h]; rfl, fun v hv => ⟨?_, fun input' v' hv' h => ?_⟩⟩
  · obtain ⟨text, hprint, hparse⟩ := toml.parse_print (toml.held_redact (toml.parse_held hv))
    rw [hv]
    exact ⟨text, _, hprint, hparse, alike_redactValue v⟩
  · rw [hv, hv', Option.bind_some, Option.bind_some, redactValue_eq h]

/-- two peers in an array, the second with a key -/
def twoPeers (secret : List Char) : Value :=
  .table [("peers", .array [.table [("name", .string "a")],
    .table [("md5_key", .string (String.ofList secret))]])]

def peersText : List Char := "[[peers]]\nname = a\n[[peers]]\nmd5_key = ".toList

/-- a library that knows such documents, and takes a string as it stands -/
def peersToml : Toml (List Char) where
  parse text :=
    if peersText <+: text then some (twoPeers (text.drop peersText.length)) else none
  print
    | .table [(_, .array [_, .table [(_, .string s)]])] => some (peersText ++ s.toList)
    | _ => none
  Held v := ∃ secret, v = twoPeers secret
  parse_held h := ⟨_, (Option.some.inj (Option.ite_none_right_eq_some.mp h).2).symm⟩
  held_redact := by
    rintro _ ⟨secret, rfl⟩
    exact ⟨redacted.toList, by simp [twoPeers, redactValue, redactEntries, redactItems, redactedKeys]⟩
  parse_print := by
    rintro _ ⟨secret, rfl⟩
    refine ⟨_, rfl, ?_⟩
    simp

theorem redactToml_hides_twoPeers :
    redactToml peersToml (peersText ++ ['x']) = redactToml peersToml (peersText ++ ['y']) := by
  have hparse : ∀ secret, peersToml.parse (peersText ++ secret) = some (twoPeers secret) :=
    fun secret => by simp [peersToml]
  refine ((redactToml_hides peersToml (peersText ++ ['y'])).2 _ (hparse _)).2 _ _ (hparse _) ?_
  refine .table (.cons _ (.array (.cons (.same _) (.cons (.table ?_) .nil))) .nil)
  exact .secret (by decide) _ _ .nil

end Netom.DaemonInfo
