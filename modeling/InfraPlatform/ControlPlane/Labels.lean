import InfraPlatform.Lib.Table
import InfraPlatform.ControlPlane.Interface

/-!
# Listing by label

`infractl node list` and `infractl deployment list` with `--label key=value` arguments, from `parseFlags` and
`buildQuery` of `cmd/infractl` over the query to `parseLabels`, the list handlers of `internal/api` and the store.

A Go map of labels is a `Table`; ranging over it gives the entries in any order.  `url.Values.Encode` and the parsing of
the query are taken to be inverse, so that the handler sees the values that the client set.

* `parseFlags_labels`: what the client makes of the arguments; of a key given twice the last value stays.
* `label_filters_iff`: for which stores and arguments the answer is what was asked for.
-/

namespace ControlPlane

open Lib

/-! ## Text -/

/-- `strings.Cut` at an equals sign. -/
def cut (s : String) : Option (String × String) :=
  match s.toList.dropWhile (· ≠ '=') with
  | [] => none
  | _ :: after => some (String.ofList (s.toList.takeWhile (· ≠ '=')), String.ofList after)

/-- `strings.TrimPrefix`, where `strings.HasPrefix` holds. -/
def trimPrefix (start s : String) : Option String := (start.toList.isPrefixOf? s.toList).map String.ofList

theorem cut_join {k : String} (hk : '=' ∉ k.toList) (v : String) : cut (k ++ "=" ++ v) = some (k, v) := by
  have hall : ∀ c ∈ k.toList, decide (c ≠ '=') = true := by
    intro c hc
    rw [decide_eq_true_eq]
    rintro rfl
    exact hk hc
  have hlist : (k ++ "=" ++ v).toList = k.toList ++ '=' :: v.toList := by
    rw [String.toList_append, String.toList_append, List.append_assoc]
    rfl
  have hdrop : (k ++ "=" ++ v).toList.dropWhile (· ≠ '=') = '=' :: v.toList := by
    rw [hlist, List.dropWhile_append_of_pos hall]
    rfl
  have htake : (k ++ "=" ++ v).toList.takeWhile (· ≠ '=') = k.toList := by
    rw [hlist, List.takeWhile_append_of_pos hall]
    exact List.append_nil _
  unfold cut
  rw [hdrop, htake]
  simp only [String.ofList_toList]

/-! ## The client -/

/-- A map of labels; a key has one entry. -/
abbrev LabelMap := Table (Prod.fst : String × String → String)

structure CliFlags where
  ns : String := ""
  labels : LabelMap := .empty
  positional : List String := []

/-- The entry of a `key=value` text; one without an equals sign is ignored. -/
def setLabel (labels : LabelMap) (kv : String) : LabelMap :=
  match cut kv with
  | some e => labels.put e
  | none => labels

/-- The `default` case of the switch in `parseFlags`. -/
def CliFlags.word (f : CliFlags) (arg : String) : CliFlags :=
  match trimPrefix "--namespace=" arg with
  | some ns => { f with ns }
  | none =>
    match trimPrefix "--label=" arg with
    | some kv => { f with labels := setLabel f.labels kv }
    | none => { f with positional := f.positional ++ [arg] }

/-- The loop of `parseFlags`; a flag at the end has no value. -/
def CliFlags.parse (f : CliFlags) : List String → CliFlags
  | [] => f
  | arg :: rest =>
    if arg = "--namespace" ∨ arg = "-n" then
      match rest with
      | [] => f
      | ns :: rest => CliFlags.parse { f with ns } rest
    else if arg = "--label" ∨ arg = "-l" then
      match rest with
      | [] => f
      | kv :: rest => CliFlags.parse { f with labels := setLabel f.labels kv } rest
    else CliFlags.parse (f.word arg) rest

theorem CliFlags.parse_other {arg : String} (hns : ¬ (arg = "--namespace" ∨ arg = "-n"))
    (hlabel : ¬ (arg = "--label" ∨ arg = "-l")) (f : CliFlags) (rest : List String) :
    f.parse (arg :: rest) = (f.word arg).parse rest := by
  rw [CliFlags.parse.eq_def]
  simp only [if_neg hns, if_neg hlabel]

def parseFlags (args : List String) : CliFlags := CliFlags.parse {} args

/-- `url.Values`, of which the list handlers read two keys. -/
structure Values where
  ns : List String := []
  label : List String := []
deriving DecidableEq

/-- `order` is the order in which the loop over the map meets its entries. -/
def buildQuery (ns : String) (order : List (String × String)) : Values where
  ns := if ns ≠ "" then [ns] else []
  label := order.map fun e => e.1 ++ "=" ++ e.2

/-! ## The handlers -/

def parseLabels (vals : List String) : LabelMap := vals.foldl setLabel .empty

/-- A response of a list handler; `total` is the number of entities. -/
inductive Listing where
  | ok (entities : List Entity) (total : Nat)
  | error (code : Nat) (msg : String)
deriving DecidableEq

/-- The end of a list handler. -/
def writeListing : Answer StoreErr → Listing
  | .error err => .error 500 err.text
  | .ok entities => .ok entities entities.length

namespace Api

def listNodes (s : Store) (q : Values) : Listing :=
  if 0 < q.label.length then writeListing (s.handle (.listNodesByLabels (some (parseLabels q.label).rows))).1
  else writeListing (s.handle .listNodes).1

def listDeployments (s : Store) (q : Values) : Listing :=
  if q.ns.headD "" ≠ "" then writeListing (s.handle (.listDeploymentsByNamespace (q.ns.headD ""))).1
  else writeListing (s.handle .listDeployments).1

end Api

/-! ## Label arguments -/

/-- The ways to write a label argument. -/
inductive LabelFlag where
  | long | short | joined
deriving DecidableEq

structure LabelArg where
  flag : LabelFlag := .long
  key : String
  value : String
  key_plain : '=' ∉ key.toList
deriving DecidableEq

namespace LabelArg

def pair (a : LabelArg) : String × String := (a.key, a.value)

/-- The words of the command line. -/
def words (a : LabelArg) : List String :=
  match a.flag with
  | .long => ["--label", a.key ++ "=" ++ a.value]
  | .short => ["-l", a.key ++ "=" ++ a.value]
  | .joined => ["--label=" ++ (a.key ++ "=" ++ a.value)]

end LabelArg

theorem setLabel_pair (labels : LabelMap) (a : LabelArg) :
    setLabel labels (a.key ++ "=" ++ a.value) = labels.put a.pair := by
  rw [setLabel, cut_join a.key_plain]
  rfl

theorem word_joined (f : CliFlags) (a : LabelArg) :
    f.word ("--label=" ++ (a.key ++ "=" ++ a.value)) = { f with labels := f.labels.put a.pair } := by
  have hlist : ("--label=" ++ (a.key ++ "=" ++ a.value)).toList =
      ['-', '-', 'l', 'a', 'b', 'e', 'l', '='] ++ (a.key ++ "=" ++ a.value).toList := by
    rw [String.toList_append]
    rfl
  have hns : trimPrefix "--namespace=" ("--label=" ++ (a.key ++ "=" ++ a.value)) = none := by
    rw [trimPrefix, hlist]
    rfl
  have hlabel : trimPrefix "--label=" ("--label=" ++ (a.key ++ "=" ++ a.value)) = some (a.key ++ "=" ++ a.value) := by
    have hrest : "--label=".toList.isPrefixOf? ("--label=".toList ++ (a.key ++ "=" ++ a.value).toList) =
        some (a.key ++ "=" ++ a.value).toList := List.isPrefixOf?_eq_some_iff_append_eq.mpr rfl
    rw [trimPrefix, String.toList_append, hrest, Option.map_some, String.ofList_toList]
  rw [CliFlags.word, hns, hlabel]
  simp only [setLabel_pair]

/-- One label argument. -/
theorem parse_words (f : CliFlags) (a : LabelArg) (rest : List String) :
    f.parse (a.words ++ rest) = CliFlags.parse { f with labels := f.labels.put a.pair } rest := by
  unfold LabelArg.words
  cases a.flag with
  | long =>
    simp only [List.cons_append, List.nil_append, CliFlags.parse]
    rw [if_neg (by decide), if_pos (by decide), setLabel_pair]
  | short =>
    simp only [List.cons_append, List.nil_append, CliFlags.parse]
    rw [if_neg (by decide), if_pos (by decide), setLabel_pair]
  | joined =>
    have hne (w : String) (hw : w.toList.length < 8) : "--label=" ++ (a.key ++ "=" ++ a.value) ≠ w := by
      rintro rfl
      rw [String.toList_append, List.length_append] at hw
      have h8 : "--label=".toList.length = 8 := rfl
      omega
    have hns : "--label=" ++ (a.key ++ "=" ++ a.value) ≠ "--namespace" := by
      -- they differ in the third character
      intro h
      have hchar := congrArg (fun s : String => s.toList[2]?) h
      simp only [String.toList_append] at hchar
      rw [List.getElem?_append_left (by decide)] at hchar
      exact absurd hchar (by decide)
    rw [List.singleton_append, CliFlags.parse_other (not_or.mpr ⟨hns, hne "-n" (by decide)⟩)
      (not_or.mpr ⟨hne "--label" (by decide), hne "-l" (by decide)⟩), word_joined]

/-- **What the client makes of label arguments.** -/
theorem parseFlags_labels (given : List LabelArg) :
    parseFlags (given.flatMap LabelArg.words) = { labels := Table.empty.putAll (given.map LabelArg.pair) } := by
  have hparse (f : CliFlags) : f.parse (given.flatMap LabelArg.words) =
      { f with labels := f.labels.putAll (given.map LabelArg.pair) } := by
    induction given generalizing f with
    | nil => rfl
    | cons a given ih =>
      rw [List.flatMap_cons, parse_words, ih]
      rfl
  exact hparse {}

/-! ## What the server makes of them -/

theorem parseLabels_join {order : List (String × String)} (hplain : ∀ e ∈ order, '=' ∉ e.1.toList) :
    parseLabels (order.map fun e => e.1 ++ "=" ++ e.2) = Table.empty.putAll order := by
  have hfold (labels : LabelMap) : (order.map fun e => e.1 ++ "=" ++ e.2).foldl setLabel labels =
      labels.putAll order := by
    induction order generalizing labels with
    | nil => rfl
    | cons e order ih =>
      have hset : setLabel labels (e.1 ++ "=" ++ e.2) = labels.put e := by
        rw [setLabel, cut_join (hplain e List.mem_cons_self)]
      rw [List.map_cons, List.foldl_cons, hset, ih fun e he => hplain e (List.mem_cons_of_mem _ he)]
      rfl
  exact hfold .empty

/-- The value that counts for a key: the last one given. -/
def lastValue (given : List LabelArg) (k : String) : Option String :=
  (given.reverse.find? fun a => a.key = k).map LabelArg.value

/-- The labels have the last value given for each key, a missing label counting as an empty one. -/
def Selected (given : List LabelArg) (labels : Labels) : Prop :=
  ∀ a ∈ given, lastValue given a.key = some (labelAt labels a.key)

/-- The labels contain every given key with exactly the given value. -/
def carries (given : List LabelArg) (labels : Labels) : Bool :=
  given.all fun a => (Json.entries labels).lookup a.key == some a.value

/-- Each key was given with one value, and those given with an empty one are there. -/
def Told (given : List LabelArg) (labels : Labels) : Prop :=
  (∀ a ∈ given, lastValue given a.key = some a.value) ∧
  ∀ a ∈ given, a.value = "" → ((Json.entries labels).lookup a.key).isSome

instance (given : List LabelArg) (labels : Labels) : Decidable (Selected given labels) :=
  inferInstanceAs (Decidable (∀ a ∈ given, _))

instance (given : List LabelArg) (labels : Labels) : Decidable (Told given labels) :=
  inferInstanceAs (Decidable ((∀ a ∈ given, _) ∧ ∀ a ∈ given, _))

section

variable {given : List LabelArg} {labels : Labels}

theorem get_given (k : String) : (Table.empty.putAll (given.map LabelArg.pair) : LabelMap).get k =
    (given.reverse.find? fun a => a.key = k).map LabelArg.pair := by
  rw [Table.get_putAll, ← List.map_reverse, List.find?_map]
  exact Option.or_none

theorem lastValue_isSome {a : LabelArg} (ha : a ∈ given) :
    ∃ b ∈ given, b.key = a.key ∧ given.reverse.find? (fun c => c.key = a.key) = some b := by
  cases hfind : given.reverse.find? fun c => c.key = a.key with
  | none =>
    rw [List.find?_eq_none] at hfind
    exact absurd (decide_eq_true rfl) (hfind a (List.mem_reverse.mpr ha))
  | some b =>
    have hkey : b.key = a.key := by simpa using List.find?_some hfind
    exact ⟨b, List.mem_reverse.mp (List.mem_of_find?_eq_some hfind), hkey, rfl⟩

theorem selected_iff : Selected given labels ↔
    ∀ e ∈ (Table.empty.putAll (given.map LabelArg.pair) : LabelMap).rows, labelAt labels e.1 = e.2 := by
  constructor
  · intro h e he
    have hget := Table.get_of_mem he
    rw [get_given, Option.map_eq_some_iff] at hget
    obtain ⟨b, hfind, rfl⟩ := hget
    have hb := h b (List.mem_reverse.mp (List.mem_of_find?_eq_some hfind))
    have hlast : lastValue given b.key = some b.value := by
      change (given.reverse.find? fun a => a.key = b.pair.1).map LabelArg.value = _
      rw [hfind]
      rfl
    rw [hlast, Option.some.injEq] at hb
    exact hb.symm
  · intro h a ha
    obtain ⟨b, -, hkey, hfind⟩ := lastValue_isSome ha
    have hget : (Table.empty.putAll (given.map LabelArg.pair) : LabelMap).get a.key = some b.pair := by
      rw [get_given, hfind]
      rfl
    have hlabel := h b.pair (Table.mem_of_get hget)
    have hvalue : labelAt labels a.key = b.value := by
      rw [← hkey]
      exact hlabel
    rw [lastValue, hfind, hvalue]
    rfl

/-- Labels that carry what was given are selected; for the converse it takes `Told`. -/
theorem carries_iff : carries given labels = true ↔ Selected given labels ∧ Told given labels := by
  have hcarries : carries given labels = true ↔
      ∀ a ∈ given, (Json.entries labels).lookup a.key = some a.value := by simp [carries]
  rw [hcarries]
  constructor
  · intro h
    have hlast : ∀ a ∈ given, lastValue given a.key = some a.value := by
      intro a ha
      obtain ⟨b, hb, hkey, hfind⟩ := lastValue_isSome ha
      have hsame := h a ha
      rw [← hkey, h b hb, Option.some.injEq] at hsame
      rw [lastValue, hfind, Option.map_some, hsame]
    refine ⟨fun a ha => ?_, hlast, fun a ha _ => by rw [h a ha]; rfl⟩
    rw [hlast a ha, labelAt, h a ha]
    rfl
  · rintro ⟨hsel, hlast, hempty⟩ a ha
    have hvalue : labelAt labels a.key = a.value := by
      have hsame := hsel a ha
      rw [hlast a ha, Option.some.injEq] at hsame
      exact hsame.symm
    unfold labelAt at hvalue
    cases hlook : (Json.entries labels).lookup a.key with
    | some v =>
      rw [hlook] at hvalue
      exact congrArg some hvalue
    | none =>
      -- a label that is missing passes for an empty one
      rw [hlook] at hvalue
      have hthere := hempty a ha hvalue.symm
      rw [hlook] at hthere
      cases hthere

end

/-! ## From the command line to the store -/

/-- An answer with these entities. -/
def listing {α : Type} (wrap : α → Entity) (l : List α) : Listing := .ok (l.map wrap) l.length

theorem writeListing_ok {α : Type} (wrap : α → Entity) (l : List α) :
    writeListing (listed wrap (.ok l)) = listing wrap l := by
  simp [writeListing, listed, listing, Except.map]

theorem listing_inj {α : Type} {wrap : α → Entity} (hwrap : Function.Injective wrap) {l l' : List α} :
    listing wrap l = listing wrap l' ↔ l = l' := by
  constructor
  · intro h
    exact List.map_injective_iff.mpr hwrap (Listing.ok.inj h).1
  · rintro rfl
    rfl

theorem filter_eq_iff {α : Type} {p q : α → Bool} {l : List α} : l.filter p = l.filter q ↔ ∀ a ∈ l, p a = q a := by
  constructor
  · intro h a ha
    have hmem : a ∈ l.filter p ↔ a ∈ l.filter q := by rw [h]
    rw [List.mem_filter, List.mem_filter] at hmem
    rw [Bool.eq_iff_iff]
    tauto
  · exact List.filter_congr

/-- The nodes that the handler returns. -/
theorem listNodes_eq (s : Store) (given : List LabelArg) {order : List (String × String)}
    (horder : order.Perm (parseFlags (given.flatMap LabelArg.words)).labels.rows) :
    Api.listNodes s (buildQuery (parseFlags (given.flatMap LabelArg.words)).ns order) =
      listing .node (s.nodes.rows.filter fun n => decide (Selected given n.labels)) := by
  rw [parseFlags_labels] at horder ⊢
  simp only at horder
  have hplain : ∀ e ∈ order, '=' ∉ e.1.toList := by
    intro e he
    have hget := Table.get_of_mem (horder.mem_iff.mp he)
    rw [get_given, Option.map_eq_some_iff] at hget
    obtain ⟨a, -, rfl⟩ := hget
    exact a.key_plain
  have hmatches (labels : Labels) : matchesSelector labels (some (Table.empty.putAll order : LabelMap).rows) =
      decide (Selected given labels) := by
    rw [Bool.eq_iff_iff, decide_eq_true_eq, selected_iff]
    have hrows := Table.putAll_perm horder
    simp only [matchesSelector, Json.entries, Option.getD_some, List.all_eq_true, beq_iff_eq, hrows.mem_iff]
  unfold Api.listNodes buildQuery
  simp only [parseLabels_join hplain, List.length_map]
  split
  · simp only [Store.handle, hmatches, writeListing_ok]
  · next hnone =>
    -- nothing was given, so every node is selected
    have hnil : order = [] := List.length_eq_zero_iff.mp (by omega)
    have hall : ∀ labels : Labels, Selected given labels := by
      intro labels
      rw [selected_iff]
      intro e he
      rw [← horder.mem_iff, hnil] at he
      cases he
    simp only [hall, decide_true, List.filter_true, Store.handle, writeListing_ok]

/-- **When the answer is what was asked for.**  Nodes: exactly if every stored node that the last values select has
been told apart (no key with two values, and the keys given with an empty value are there).  Deployments: exactly
if every stored deployment carries the labels, which the handler does not look at. -/
theorem label_filters_iff (s : Store) (given : List LabelArg) (order : List (String × String))
    (horder : order.Perm (parseFlags (given.flatMap LabelArg.words)).labels.rows) :
    (Api.listNodes s (buildQuery (parseFlags (given.flatMap LabelArg.words)).ns order) =
        listing .node (s.nodes.rows.filter fun n => carries given n.labels) ↔
      ∀ n ∈ s.nodes.rows, Selected given n.labels → Told given n.labels) ∧
    (Api.listDeployments s (buildQuery (parseFlags (given.flatMap LabelArg.words)).ns order) =
        listing .deployment (s.deployments.rows.filter fun d => carries given d.labels) ↔
      ∀ d ∈ s.deployments.rows, carries given d.labels = true) := by
  constructor
  · rw [listNodes_eq s given horder, listing_inj fun _ _ h => Entity.node.inj h, filter_eq_iff]
    refine forall₂_congr fun n _ => ?_
    rw [Bool.eq_iff_iff, decide_eq_true_eq, carries_iff]
    tauto
  · have hall : Api.listDeployments s (buildQuery (parseFlags (given.flatMap LabelArg.words)).ns order) =
        listing .deployment s.deployments.rows := by
      rw [parseFlags_labels]
      exact writeListing_ok _ _
    rw [hall, listing_inj fun _ _ h => Entity.deployment.inj h, eq_comm, List.filter_eq_self]

/-- Two nodes, one with a label, and a deployment. -/
def labelledStore : Store where
  nodes := Table.empty.putAll [{ id := "node-1", status := .healthy, labels := some [("zone", "a")] },
    { id := "node-2", status := .healthy }]
  deployments := Table.empty.putAll [{ id := "deploy-1", status := .active }]

theorem label_filters_iff_zone : Api.listNodes labelledStore (buildQuery "" [("zone", "a")]) =
    listing .node (labelledStore.nodes.rows.filter fun n => carries [⟨.long, "zone", "a", by decide⟩] n.labels) :=
  (label_filters_iff labelledStore [⟨.long, "zone", "a", by decide⟩] [("zone", "a")] (by decide)).1.mpr (by decide)

/-- An empty value selects the node without the label, a key given twice is taken at its last value, and deployments are
not filtered. -/
theorem label_filters_lost : ¬ ∀ (s : Store) (given : List LabelArg) (order : List (String × String)),
    order.Perm (parseFlags (given.flatMap LabelArg.words)).labels.rows →
      Api.listNodes s (buildQuery (parseFlags (given.flatMap LabelArg.words)).ns order) =
        listing .node (s.nodes.rows.filter fun n => carries given n.labels) ∧
      Api.listDeployments s (buildQuery (parseFlags (given.flatMap LabelArg.words)).ns order) =
        listing .deployment (s.deployments.rows.filter fun d => carries given d.labels) := by
  intro h
  have hzone := (h labelledStore [⟨.long, "zone", "", by decide⟩] [("zone", "")] (by decide)).1
  revert hzone
  decide

end ControlPlane
