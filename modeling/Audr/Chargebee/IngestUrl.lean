import Audr.Lib.Cuts
import Mathlib.Data.List.Basic

/-! `credentials.ts` of the Chargebee sink: the ingest URLs it accepts, on top of the `URL` of the
platform. -/

namespace Audr.Chargebee

open Cuts

/-- A character of `[a-z0-9-]`. -/
def labelChar (c : Char) : Bool := c.isLower || c.isDigit || c = '-'

/-- `HOST_LABEL`: `[a-z0-9](?:[a-z0-9-]{0,61}[a-z0-9])?`. -/
def hostLabel (label : List Char) : Bool :=
  label ≠ [] && label.length ≤ 63 && label.all labelChar && label.head? ≠ some '-' && label.getLast? ≠ some '-'

/-- `HOST`: at least two labels with dots between them. -/
def hostPattern (host : List Char) : Bool :=
  let labels := host.splitOn '.'
  2 ≤ labels.length && labels.all hostLabel

def batchPath : List Char := "/api/v2/batch/usage_events".toList

def acceptedPaths : List (List Char) := [[], ['/'], batchPath]

def https : List Char := "https://".toList

/-- `[^/?#]`. -/
def hostChar (c : Char) : Bool := c ≠ '/' && c ≠ '?' && c ≠ '#'

/-- `[^?#]`. -/
def pathChar (c : Char) : Bool := c ≠ '?' && c ≠ '#'

/-- What follows `https://` at the start of a text. -/
def afterHttps (text : List Char) : Option (List Char) :=
  if https.isPrefixOf text then some (text.drop https.length) else none

/-! The URLs the sinks are meant to accept. -/

/-- An empty query, an empty fragment, or both. -/
def markers : List (List Char) := [[], ['?'], ['#'], ['?', '#']]

/-- A host name, an accepted path and at most empty markers. -/
def IngestText (text host : List Char) : Prop :=
  hostPattern host = true ∧ ∃ path ∈ acceptedPaths, ∃ tail ∈ markers, text = https ++ (host ++ (path ++ tail))

def originOf (host : List Char) : String := String.ofList (https ++ host)

/-! The platform. -/

/-- What the sink reads of a `URL`. -/
structure Url where
  protocol : String
  username : String
  password : String
  hostname : List Char
  search : String
  hash : String

/-- A C0 control or a space, which `URL` strips at both ends. -/
def strippable (c : Char) : Bool := c.toNat ≤ 0x20

/-- What `URL` removes wherever it stands. -/
def removable (c : Char) : Bool := c = '\t' || c = '\n' || c = '\x0d'

/-- The end of a text as `URL` reads it. -/
def trimmed (tail : List Char) : List Char := (tail.rdropWhile strippable).filter fun c => !removable c

def queryOf (tail : List Char) : List Char := after '?' (before '#' tail)

def fragmentOf (tail : List Char) : List Char := after '#' tail

/-- `new URL`, which may throw, on URLs with a host name and one of the paths: it keeps or changes
the name, or refuses it, as its host parser does, and tells whether a query or a fragment is
left. -/
structure UrlParser where
  parse : List Char → Option Url
  host : List Char → Option (List Char)
  toLowerCase : List Char → List Char
  refuses : ∀ name path tail, hostPattern name = true → path ∈ acceptedPaths → Stops pathChar tail → host name = none →
    parse (https ++ (name ++ (path ++ tail))) = none
  reads : ∀ name path tail hostname, hostPattern name = true → path ∈ acceptedPaths → Stops pathChar tail →
    host name = some hostname → ∃ url, parse (https ++ (name ++ (path ++ tail))) = some url ∧ url.protocol = "https:" ∧
      url.username = "" ∧ url.password = "" ∧ url.hostname = hostname ∧ (url.search = "" ↔ queryOf (trimmed tail) = []) ∧
      (url.hash = "" ↔ fragmentOf (trimmed tail) = [])
  lowers : ∀ name, hostPattern name = true → toLowerCase name = name

/-- `/:\d*$/`. -/
def endsInPort (host : List Char) : Bool := (host.rdropWhile Char.isDigit).getLast? = some ':'

/-- `parseIngestUrl`; every refusal is a `ConfigurationError`. -/
def parseIngestUrl (parser : UrlParser) (ingestUrl : List Char) : Except String String :=
  match parser.parse ingestUrl with
  | none => .error "ingestUrl must include a host name"
  | some url =>
      let rest := (afterHttps ingestUrl).getD []
      let host := rest.takeWhile hostChar
      let path := (rest.dropWhile hostChar).takeWhile pathChar
      if url.protocol ≠ "https:" then .error "ingestUrl scheme must be https"
      else if url.username ≠ "" ∨ url.password ≠ "" then .error "ingestUrl must not include userinfo"
      else if url.search ≠ "" then .error "ingestUrl must not include a query string"
      else if url.hash ≠ "" then .error "ingestUrl must not include a fragment"
      else if host = [] then .error "ingestUrl must include a host name"
      else if endsInPort host then .error "ingestUrl must not include a port"
      else if host.getLast? = some '.' then .error "ingestUrl host must not have a trailing dot"
      else if host ≠ parser.toLowerCase host then .error "ingestUrl host must be lowercase"
      else if hostPattern host = false ∨ host ≠ url.hostname then
        .error "ingestUrl host must be a dotted lowercase host name with at least two labels"
      else if path ∉ acceptedPaths then
        .error "ingestUrl path must be empty, /, or /api/v2/batch/usage_events; the sink only calls the batch endpoint"
      else .ok (originOf host)

/-! Host names. -/

theorem hostLabel_chars {label : List Char} (named : hostLabel label = true) :
    label ≠ [] ∧ ∀ c ∈ label, labelChar c = true := by
  simp only [hostLabel, Bool.and_eq_true, decide_eq_true_eq, List.all_eq_true] at named
  exact ⟨named.1.1.1.1, named.1.1.2⟩

/-- Labels with dots between them have no other characters, and end with the last label. -/
theorem intercalate_labels {labels : List (List Char)} (some : labels ≠ []) (named : ∀ label ∈ labels, hostLabel label = true) :
    (∀ c ∈ ['.'].intercalate labels, labelChar c = true ∨ c = '.') ∧
      ∃ c ∈ (['.'].intercalate labels).getLast?, labelChar c = true := by
  induction labels with
  | nil => exact absurd rfl some
  | cons label rest ih =>
    obtain ⟨filled, chars⟩ := hostLabel_chars (named label List.mem_cons_self)
    by_cases last : rest = []
    · subst last
      rw [List.intercalate_singleton]
      refine ⟨fun c inside => .inl (chars c inside), label.getLast filled, ?_, chars _ (List.getLast_mem filled)⟩
      rw [List.getLast?_eq_some_getLast filled]
      exact rfl
    · obtain ⟨others, final, found, ends⟩ := ih last fun other inside => named other (List.mem_cons_of_mem _ inside)
      rw [List.intercalate_cons_of_ne_nil last]
      constructor
      · intro c inside
        simp only [List.mem_append, List.mem_singleton] at inside
        rcases inside with (inside | rfl) | inside
        · exact .inl (chars c inside)
        · exact .inr rfl
        · exact others c inside
      · refine ⟨final, ?_, ends⟩
        rw [List.getLast?_append, found]
        exact rfl

theorem hostPattern_chars {host : List Char} (named : hostPattern host = true) :
    (∀ c ∈ host, labelChar c = true ∨ c = '.') ∧ ∃ c ∈ host.getLast?, labelChar c = true := by
  simp only [hostPattern, Bool.and_eq_true, decide_eq_true_eq, List.all_eq_true] at named
  have some : host.splitOn '.' ≠ [] := by
    intro none
    rw [none] at named
    exact absurd named.1 (by decide)
  have joined := intercalate_labels some named.2
  rwa [List.intercalate_splitOn] at joined

theorem not_mem_host {host : List Char} (named : hostPattern host = true) {c : Char} (other : labelChar c = false)
    (dot : c ≠ '.') : c ∉ host := by
  intro inside
  rcases (hostPattern_chars named).1 c inside with label | same
  · rw [other] at label
    cases label
  · exact dot same

/-- A host name is in ASCII, and in lower case. -/
theorem host_ascii {host : List Char} (named : hostPattern host = true) :
    ∀ c ∈ host, c.toNat < 128 ∧ c.isUpper = false := by
  intro c inside
  have range : (c.toNat ≤ 57 ∨ 97 ≤ c.toNat) ∧ c.toNat ≤ 122 := by
    rcases (hostPattern_chars named).1 c inside with label | rfl
    · simp only [labelChar, Bool.or_eq_true, decide_eq_true_eq] at label
      rcases label with (lower | digit) | rfl
      · have range : (decide (c.val ≥ 'a'.val) && decide (c.val ≤ 'z'.val)) = true := lower
        simp only [Bool.and_eq_true, decide_eq_true_eq, ge_iff_le, UInt32.le_iff_toNat_le] at range
        exact ⟨.inr range.1, range.2⟩
      · simp only [Char.isDigit, Bool.and_eq_true, decide_eq_true_eq, ge_iff_le, UInt32.le_iff_toNat_le] at digit
        have high : c.toNat ≤ 57 := digit.2
        exact ⟨.inl high, by omega⟩
      · decide
    · decide
  have outside : ¬(c.val ≥ 'A'.val ∧ c.val ≤ 'Z'.val) := by
    intro within
    have least : 65 ≤ c.toNat := UInt32.le_iff_toNat_le.mp within.1
    have most : c.toNat ≤ 90 := UInt32.le_iff_toNat_le.mp within.2
    omega
  exact ⟨by omega, decide_eq_false outside⟩

theorem host_chars {host : List Char} (named : hostPattern host = true) : host ≠ [] ∧ ∀ c ∈ host, hostChar c = true := by
  constructor
  · rintro rfl
    obtain ⟨-, c, last, -⟩ := hostPattern_chars named
    cases last
  · intro c inside
    simp only [hostChar, Bool.and_eq_true, decide_eq_true_eq]
    refine ⟨⟨?_, ?_⟩, ?_⟩ <;> rintro rfl <;> exact not_mem_host named (by decide) (by decide) inside

theorem host_last {host : List Char} (named : hostPattern host = true) : host.getLast? ≠ some '.' := by
  obtain ⟨-, c, last, label⟩ := hostPattern_chars named
  intro dot
  rw [dot] at last
  cases last
  exact absurd label (by decide)

theorem host_noPort {host : List Char} (named : hostPattern host = true) : endsInPort host = false := by
  rw [endsInPort, decide_eq_false_iff_not]
  intro colon
  have inside := List.mem_of_getLast? colon
  exact not_mem_host named (by decide) (by decide) ((List.rdropWhile_prefix _ _).subset inside)

/-! Texts that begin with `https://`. -/

theorem afterHttps_eq_some {text rest : List Char} : afterHttps text = some rest ↔ text = https ++ rest := by
  unfold afterHttps
  constructor
  · intro found
    split at found
    next leads =>
      obtain ⟨tail, rfl⟩ := List.isPrefixOf_iff_prefix.mp leads
      rw [List.drop_left] at found
      rw [Option.some.inj found]
    next => cases found
  · rintro rfl
    rw [if_pos (List.isPrefixOf_iff_prefix.mpr ⟨rest, rfl⟩), List.drop_left]

theorem path_chars {path : List Char} (accepted : path ∈ acceptedPaths) :
    (∀ c ∈ path, pathChar c = true) ∧ Stops hostChar path := by
  simp only [acceptedPaths, List.mem_cons, List.not_mem_nil, or_false] at accepted
  rcases accepted with rfl | rfl | rfl
  · exact ⟨by simp, stops_nil⟩
  · have chars : ['/'].all pathChar = true := by decide
    exact ⟨List.all_eq_true.mp chars, stops_cons.mpr (by decide)⟩
  · have chars : batchPath.all pathChar = true := by decide
    exact ⟨List.all_eq_true.mp chars, stops_cons.mpr (by decide)⟩

theorem stops_path {path tail : List Char} (accepted : path ∈ acceptedPaths) (ends : Stops pathChar tail) :
    Stops hostChar (path ++ tail) := by
  cases path with
  | nil =>
    intro c found
    have stopped := ends c found
    simp only [pathChar, Bool.and_eq_false_iff, decide_eq_false_iff_not, not_not] at stopped
    rcases stopped with rfl | rfl <;> decide
  | cons c rest => exact stops_cons.mpr (stops_cons.mp (path_chars accepted).2)

/-- How a text is cut into a host name, a path and the rest. -/
theorem cut_ingest {host path tail : List Char} (named : hostPattern host = true) (accepted : path ∈ acceptedPaths)
    (ends : Stops pathChar tail) :
    (host ++ (path ++ tail)).takeWhile hostChar = host ∧
      ((host ++ (path ++ tail)).dropWhile hostChar).takeWhile pathChar = path ∧
      ((host ++ (path ++ tail)).dropWhile hostChar).dropWhile pathChar = tail := by
  have first := span_unique (host_chars named).2 (stops_path accepted ends)
  have second := span_unique (path_chars accepted).1 ends
  rw [first.1, first.2, second.1, second.2]
  exact ⟨rfl, rfl, rfl⟩

/-! What the TypeScript sink accepts. -/

/-- A host name, an accepted path and what `URL` takes for empty markers. -/
def SpacedText (text host : List Char) : Prop :=
  hostPattern host = true ∧ ∃ path ∈ acceptedPaths, ∃ tail, Stops pathChar tail ∧ trimmed tail ∈ markers ∧
    text = https ++ (host ++ (path ++ tail))

theorem trimmed_stops {tail : List Char} (ends : Stops pathChar tail) : Stops pathChar (trimmed tail) := by
  cases tail with
  | nil => exact stops_nil
  | cons c rest =>
    have mark : c = '?' ∨ c = '#' := by
      have stopped := stops_cons.mp ends
      simpa [pathChar, Classical.or_iff_not_imp_left] using stopped
    have stays : strippable c = false ∧ removable c = false := by rcases mark with rfl | rfl <;> decide
    obtain ⟨back, kept⟩ := List.rdropWhile_prefix strippable (c :: rest)
    unfold trimmed
    cases front : (c :: rest).rdropWhile strippable with
    | nil =>
      rw [List.rdropWhile_eq_nil_iff] at front
      have stripped := front c List.mem_cons_self
      rw [stays.1] at stripped
      cases stripped
    | cons d others =>
      rw [front] at kept
      obtain ⟨rfl, -⟩ := List.cons.inj kept
      rw [List.filter_cons_of_pos (by simp [stays.2])]
      exact stops_cons.mpr (stops_cons.mp ends)

/-- An empty query and an empty fragment leave markers only. -/
theorem markers_iff {tail : List Char} (ends : Stops pathChar tail) :
    tail ∈ markers ↔ queryOf tail = [] ∧ fragmentOf tail = [] := by
  constructor
  · intro marked
    simp only [markers, List.mem_cons, List.not_mem_nil, or_false] at marked
    rcases marked with rfl | rfl | rfl | rfl <;> decide
  · rintro ⟨query, fragment⟩
    have start : before '#' tail = [] ∨ before '#' tail = ['?'] := by
      cases tail with
      | nil => exact .inl rfl
      | cons c rest =>
        have stopped := stops_cons.mp ends
        simp only [pathChar, Bool.and_eq_false_iff, decide_eq_false_iff_not, not_not] at stopped
        rcases stopped with rfl | rfl
        · have kept : before '#' ('?' :: rest) = '?' :: before '#' rest := rfl
          rw [queryOf, kept, after_eq_nil] at query
          have none : before '?' ('?' :: before '#' rest) = [] := rfl
          rw [none] at query
          rcases query with query | query
          · cases query
          · exact .inr (by rw [kept, query]; rfl)
        · exact .inl rfl
    rw [fragmentOf, after_eq_nil] at fragment
    simp only [markers, List.mem_cons, List.not_mem_nil, or_false]
    rcases start with start | start <;> rw [start] at fragment <;> rcases fragment with fragment | fragment <;> simp [fragment]

/-- A check that is passed. -/
theorem check_eq_ok {ε α : Type} {broken : Prop} [Decidable broken] {error : ε} {rest : Except ε α} {value : α} :
    (if broken then .error error else rest) = .ok value ↔ ¬broken ∧ rest = .ok value := by
  by_cases holds : broken
  · rw [if_pos holds]
    exact iff_of_false nofun fun both => both.1 holds
  · rw [if_neg holds]
    exact ⟨fun passed => ⟨holds, passed⟩, And.right⟩

theorem parseIngestUrl_eq_ok {parser : UrlParser} {text : List Char} {origin : String} :
    parseIngestUrl parser text = .ok origin ↔
      ∃ host, SpacedText text host ∧ parser.host host = some host ∧ origin = originOf host := by
  constructor
  · intro accepted
    unfold parseIngestUrl at accepted
    split at accepted
    next => cases accepted
    next url parsed =>
      dsimp only at accepted
      iterate 10 rw [check_eq_ok] at accepted
      obtain ⟨-, -, search, hash, missing, -, -, -, pattern, path, made⟩ := accepted
      cases found : afterHttps text with
      | none =>
        rw [found] at missing
        exact absurd rfl missing
      | some rest =>
        rw [found, Option.getD_some] at pattern path made
        obtain rfl := afterHttps_eq_some.mp found
        have named : hostPattern (rest.takeWhile hostChar) = true :=
          Bool.not_eq_false _ ▸ fun failed => pattern (.inl failed)
        have ends : Stops pathChar ((rest.dropWhile hostChar).dropWhile pathChar) := stops_dropWhile
        have cut : rest = rest.takeWhile hostChar ++ ((rest.dropWhile hostChar).takeWhile pathChar ++
            (rest.dropWhile hostChar).dropWhile pathChar) := by
          rw [List.takeWhile_append_dropWhile, List.takeWhile_append_dropWhile]
        have listed := Classical.not_not.mp path
        rw [cut] at parsed
        cases admitted : parser.host (rest.takeWhile hostChar) with
        | none =>
          rw [parser.refuses _ _ _ named listed ends admitted] at parsed
          cases parsed
        | some name =>
          obtain ⟨same, read, -, -, -, hostname, query, fragment⟩ := parser.reads _ _ _ name named listed ends admitted
          rw [read] at parsed
          cases parsed
          have kept : rest.takeWhile hostChar = name := by
            rw [← hostname]
            exact Classical.not_not.mp fun changed => pattern (.inr changed)
          have marked := (markers_iff (trimmed_stops ends)).mpr
            ⟨query.mp (Classical.not_not.mp search), fragment.mp (Classical.not_not.mp hash)⟩
          exact ⟨rest.takeWhile hostChar, ⟨named, _, listed, _, ends, marked, by rw [← cut]⟩, by rw [admitted, kept],
            (Except.ok.inj made).symm⟩
  · rintro ⟨host, ⟨named, path, listed, tail, ends, marked, rfl⟩, kept, rfl⟩
    obtain ⟨url, read, protocol, username, password, hostname, query, fragment⟩ :=
      parser.reads host path tail host named listed ends kept
    obtain ⟨noQuery, noFragment⟩ := (markers_iff (trimmed_stops ends)).mp marked
    obtain ⟨hostCut, pathCut, -⟩ := cut_ingest named listed ends
    have found := afterHttps_eq_some.mpr (rfl : https ++ (host ++ (path ++ tail)) = _)
    unfold parseIngestUrl
    rw [read, found]
    dsimp only [Option.getD_some]
    rw [hostCut, pathCut]
    iterate 10 rw [check_eq_ok]
    refine ⟨not_not.mpr protocol, ?_, not_not.mpr (query.mpr noQuery), not_not.mpr (fragment.mpr noFragment),
      (host_chars named).1, ?_, host_last named, not_not.mpr (parser.lowers host named).symm, ?_, not_not.mpr listed, rfl⟩
    · rintro (wrong | wrong)
      · exact wrong username
      · exact wrong password
    · rw [host_noPort named]
      decide
    · rintro (wrong | wrong)
      · rw [named] at wrong
        cases wrong
      · exact wrong hostname.symm

end Audr.Chargebee
