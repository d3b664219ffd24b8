import Audr.Chargebee.IngestUrl

/-! `_credentials.py` of the Chargebee sink: the ingest URLs it accepts, on top of `urlparse`. -/

namespace Audr.PyChargebee

open Chargebee Cuts

/-! `urllib.parse`. -/

/-- What `urlparse` and the sink use of the interpreter: lower case, the NFKC normal form, and
which network locations with brackets pass: of some versions all, of others those with an address
in the brackets, of the latest those with nothing else around them but a port. Lower case leaves a
text alone where it leaves each of its characters alone. -/
structure UrlLibrary where
  lower : List Char → List Char
  normalize : List Char → List Char
  bracketed : List Char → Bool
  lower_eq : ∀ text, lower text = text ↔ ∀ c ∈ text, lower [c] = [c]
  lower_ascii : ∀ c : Char, c.toNat < 128 → c.isUpper = false → lower [c] = [c]

/-- `_UNSAFE_URL_BYTES_TO_REMOVE`, removed wherever they stand. -/
def clean (url : List Char) : List Char := url.filter fun c => !removable c

def schemeChar (c : Char) : Bool := c.isAlpha || c.isDigit || c = '+' || c = '-' || c = '.'

/-- The scheme and the rest of a URL; no scheme is an empty one. -/
def splitScheme (url : List Char) : List Char × List Char :=
  let scheme := before ':' url
  if ':' ∈ url ∧ scheme.head?.any Char.isAlpha = true ∧ scheme.all schemeChar = true then
    (scheme.map Char.toLower, after ':' url)
  else ([], url)

/-- `_checknetloc`: characters that turn into delimiters under NFKC. -/
def expands (lib : UrlLibrary) (netloc : List Char) : Bool :=
  let text := netloc.filter fun c => c ∉ ['@', ':', '#', '?']
  netloc.any (fun c => 128 ≤ c.toNat) && text ≠ lib.normalize text &&
    ['/', '?', '#', '@', ':'].any fun c => c ∈ lib.normalize text

/-- One bracket without the other, or both in a network location that does not pass. -/
def misbracketed (lib : UrlLibrary) (netloc : List Char) : Bool :=
  if '[' ∈ netloc then ']' ∉ netloc || !lib.bracketed netloc else ']' ∈ netloc

/-- The parts of a URL. -/
structure ParseResult where
  scheme : List Char
  netloc : List Char
  path : List Char
  query : List Char
  fragment : List Char
  deriving DecidableEq

/-- `urlsplit`, which raises a `ValueError` where it is `none`. -/
def urlsplit (lib : UrlLibrary) (url : List Char) : Option ParseResult :=
  let (scheme, url) := splitScheme (clean (url.dropWhile strippable))
  let (netloc, url) :=
    if ['/', '/'].isPrefixOf url then ((url.drop 2).takeWhile hostChar, (url.drop 2).dropWhile hostChar) else ([], url)
  if misbracketed lib netloc || expands lib netloc then none
  else
    some
      { scheme
        netloc
        path := before '?' (before '#' url)
        query := after '?' (before '#' url)
        fragment := after '#' url }

/-- `_splitparams` without the parameters: cut at the first semicolon after the last slash. -/
def dropParams : List Char → List Char
  | [] => []
  | c :: rest => if c = ';' ∧ '/' ∉ rest then [] else c :: dropParams rest

def usesParams : List (List Char) :=
  ["", "ftp", "hdl", "prospero", "http", "imap", "https", "shttp", "rtsp", "rtsps", "rtspu", "sip", "sips", "mms", "sftp",
    "tel"].map String.toList

/-- `urlparse`. -/
def urlparse (lib : UrlLibrary) (url : List Char) : Option ParseResult :=
  (urlsplit lib url).map fun split =>
    { split with path := if split.scheme ∈ usesParams ∧ ';' ∈ split.path then dropParams split.path else split.path }

namespace ParseResult

/-- `_hostinfo`: the host name and the text of the port. -/
def hostinfo (parsed : ParseResult) : List Char × List Char :=
  let info := parsed.netloc.rtakeWhile fun c => c ≠ '@'
  if '[' ∈ info then (before ']' (after '[' info), after ':' (after ']' (after '[' info)))
  else (before ':' info, after ':' info)

/-- `hostname`: what follows a percent sign is kept as it is. -/
def hostname (lib : UrlLibrary) (parsed : ParseResult) : Option (List Char) :=
  let name := parsed.hostinfo.1
  if name = [] then none
  else some (if '%' ∈ name then lib.lower (before '%' name) ++ '%' :: after '%' name else lib.lower name)

/-- `port`, which raises a `ValueError` where it is `none`. Long texts are not read as numbers. -/
def port (parsed : ParseResult) : Option (Option Nat) :=
  let text := parsed.hostinfo.2
  if text = [] then some none
  else if text.all Char.isDigit = true ∧ text.length ≤ 4300 ∧ Nat.ofDigitChars 10 text 0 ≤ 65535 then
    some (some (Nat.ofDigitChars 10 text 0))
  else none

/-- Whether there is a user name or a password. -/
def hasUserinfo (parsed : ParseResult) : Bool := '@' ∈ parsed.netloc

end ParseResult

/-! `IngestEndpoint.parse`. -/

/-- What is raised: a `ConfigurationError`, or a `ValueError` of the library. -/
inductive ParseError where
  | configuration (message : String)
  | value
  deriving DecidableEq

/-- The host as it stands in the text. -/
def rawHost (ingestUrl : List Char) : Option (List Char) :=
  match afterHttps ingestUrl with
  | some rest => if rest.takeWhile hostChar = [] then none else some ((rest.takeWhile hostChar).rtakeWhile fun c => c ≠ '@')
  | none => none

/-- `IngestEndpoint.parse`, with the origin of the endpoint. -/
def parse (lib : UrlLibrary) (ingestUrl : List Char) : Except ParseError String :=
  match urlparse lib ingestUrl with
  | none => .error .value
  | some parsed =>
      if parsed.scheme ≠ "https".toList then .error (.configuration "ingest_url scheme must be https")
      else if parsed.hasUserinfo then .error (.configuration "ingest_url must not include userinfo")
      else
        match parsed.port with
        | none => .error .value
        | some (some _) => .error (.configuration "ingest_url must not include a port")
        | some none =>
            if parsed.query ≠ [] then .error (.configuration "ingest_url must not include a query string")
            else if parsed.fragment ≠ [] then .error (.configuration "ingest_url must not include a fragment")
            else
              match rawHost ingestUrl with
              | none => .error (.configuration "ingest_url must include a host name")
              | some raw =>
                  if raw.getLast? = some '.' then
                    .error (.configuration "ingest_url host must not have a trailing dot")
                  else if raw ≠ lib.lower raw then .error (.configuration "ingest_url host must be lowercase")
                  else
                    match parsed.hostname lib with
                    | none => .error (.configuration "ingest_url must include a host name")
                    | some hostname =>
                        if hostPattern hostname = false then
                          .error (.configuration
                            "ingest_url host must be a dotted lowercase host name with at least two labels")
                        else if parsed.path ∉ acceptedPaths then
                          .error (.configuration
                            "ingest_url path must be empty, /, or /api/v2/batch/usage_events; the SDK only calls the batch endpoint")
                        else .ok (originOf hostname)

/-- A `ValueError` is raised by `urlparse`, or by the port of what it returns. -/
def Raises (lib : UrlLibrary) (text : List Char) : Prop :=
  urlparse lib text = none ∨
    ∃ parsed ∈ urlparse lib text, parsed.scheme = "https".toList ∧ parsed.hasUserinfo = false ∧ parsed.port = none

/-! What is accepted. -/

/-- A network location that names a host: alone, before an empty port, or in brackets, around which
other text may stand. -/
def Names (netloc host : List Char) : Prop :=
  netloc = host ∨ netloc = host ++ [':'] ∨
    ∃ front inner, netloc = front ++ '[' :: inner ∧ '[' ∉ front ∧
      (inner = host ∨ ∃ back, inner = host ++ ']' :: back ∧ after ':' back = [])

/-- Path parameters, which are dropped. -/
def Params (params : List Char) : Prop := params = [] ∨ ∃ values, params = ';' :: values ∧ '/' ∉ values

/-- A URL like those the sinks are meant to accept, in which the host may have an empty port or stand
in brackets, the path may have parameters, and tabs and line ends may stand anywhere. -/
def RelaxedText (lib : UrlLibrary) (text host : List Char) : Prop :=
  hostPattern host = true ∧ ∃ place rest, text = https ++ (place ++ rest) ∧ (∀ c ∈ place, hostChar c = true) ∧
    Stops hostChar rest ∧ Names (clean place) host ∧ '@' ∉ place ∧ lib.lower place = place ∧ place.getLast? ≠ some '.' ∧
    ∃ path ∈ acceptedPaths, ∃ params, Params params ∧ (∀ c ∈ params, pathChar c = true) ∧
      ∃ tail ∈ markers, clean rest = path ++ (params ++ tail)

variable {lib : UrlLibrary} {text place rest netloc host path params tail : List Char}

theorem clean_append (front back : List Char) : clean (front ++ back) = clean front ++ clean back := by
  simp [clean]

theorem mem_clean {c : Char} : c ∈ clean text ↔ c ∈ text ∧ removable c = false := by
  simp [clean]

theorem dropParams_append (plain : ';' ∉ path) (extra : Params params) : dropParams (path ++ params) = path := by
  induction path with
  | nil =>
    rcases extra with rfl | ⟨values, rfl, inside⟩
    · rfl
    · rw [List.nil_append, dropParams, if_pos ⟨rfl, inside⟩]
  | cons c front ih =>
    rw [List.mem_cons, not_or] at plain
    rw [List.cons_append, dropParams, if_neg (fun both => plain.1 both.1.symm), ih plain.2]

theorem dropParams_cut (url : List Char) : ∃ params, Params params ∧ url = dropParams url ++ params := by
  induction url with
  | nil => exact ⟨[], .inl rfl, rfl⟩
  | cons c rest ih =>
    by_cases ends : c = ';' ∧ '/' ∉ rest
    · exact ⟨c :: rest, .inr ⟨rest, by rw [ends.1], ends.2⟩, by rw [dropParams, if_pos ends, List.nil_append]⟩
    · obtain ⟨params, extra, cut⟩ := ih
      exact ⟨params, extra, by rw [dropParams, if_neg ends, List.cons_append, ← cut]⟩

/-- A query and a fragment that are both empty leave markers only. -/
theorem marks_of_empty {url : List Char} (query : after '?' (before '#' url) = []) (fragment : after '#' url = []) :
    ∃ tail ∈ markers, url = before '?' (before '#' url) ++ tail := by
  rw [after_eq_nil] at query fragment
  rcases query with query | query <;> rcases fragment with fragment | fragment
  · exact ⟨[], by decide, by rw [← query, List.append_nil]; exact fragment⟩
  · exact ⟨['#'], by decide, by rw [← query]; exact fragment⟩
  · exact ⟨['?'], by decide, by rw [← query]; exact fragment⟩
  · refine ⟨['?', '#'], by decide, ?_⟩
    conv_lhs => rw [fragment, query]
    rw [List.append_assoc]
    rfl

/-- Markers leave an empty query and an empty fragment. -/
theorem marks_cut {front : List Char} (chars : ∀ c ∈ front, pathChar c = true) (marked : tail ∈ markers) :
    before '?' (before '#' (front ++ tail)) = front ∧ after '?' (before '#' (front ++ tail)) = [] ∧
      after '#' (front ++ tail) = [] := by
  have noQuery : '?' ∉ front := fun inside => absurd (chars _ inside) (by decide)
  have noFragment : '#' ∉ front := fun inside => absurd (chars _ inside) (by decide)
  have absent : '#' ∉ front ++ ['?'] := by simp [noFragment]
  simp only [markers, List.mem_cons, List.not_mem_nil, or_false] at marked
  rcases marked with rfl | rfl | rfl | rfl
  · rw [List.append_nil, (before_eq_self noFragment).1, (before_eq_self noFragment).2, (before_eq_self noQuery).1,
      (before_eq_self noQuery).2]
    exact ⟨rfl, rfl, rfl⟩
  · rw [(before_eq_self absent).1, (before_eq_self absent).2, (before_append noQuery).1, (before_append noQuery).2]
    exact ⟨rfl, rfl, rfl⟩
  · rw [(before_append noFragment).1, (before_append noFragment).2, (before_eq_self noQuery).1, (before_eq_self noQuery).2]
    exact ⟨rfl, rfl, rfl⟩
  · have split : front ++ ['?', '#'] = (front ++ ['?']) ++ '#' :: [] := by simp
    rw [split, (before_append absent).1, (before_append absent).2, (before_append noQuery).1, (before_append noQuery).2]
    exact ⟨rfl, rfl, rfl⟩

/-! A text that begins with `https://`. -/

/-- The parts of such a text. -/
def partsOf (place rest : List Char) : ParseResult :=
  { scheme := "https".toList
    netloc := clean place
    path := dropParams (before '?' (before '#' (clean rest)))
    query := after '?' (before '#' (clean rest))
    fragment := after '#' (clean rest) }

theorem splitScheme_https (url : List Char) : splitScheme (https ++ url) = ("https".toList, '/' :: '/' :: url) := by
  have cut : https ++ url = "https".toList ++ ':' :: '/' :: '/' :: url := rfl
  have absent : ':' ∉ "https".toList := by decide
  have alpha : "https".toList.head?.any Char.isAlpha = true := by decide
  have scheme : "https".toList.all schemeChar = true := by decide
  have lower : "https".toList.map Char.toLower = "https".toList := by decide
  unfold splitScheme
  rw [cut, (before_append absent).1, (before_append absent).2]
  dsimp only
  rw [if_pos ⟨List.mem_append_right _ List.mem_cons_self, alpha, scheme⟩, lower]

theorem dropParams_plain {url : List Char} (plain : ';' ∉ url) : dropParams url = url := by
  have cut := @dropParams_append url [] plain (.inl rfl)
  rwa [List.append_nil] at cut

theorem urlparse_https (chars : ∀ c ∈ place, hostChar c = true) (stops : Stops hostChar rest) :
    urlparse lib (https ++ (place ++ rest)) =
      if misbracketed lib (clean place) || expands lib (clean place) then none else some (partsOf place rest) := by
  have front : (https ++ (place ++ rest)).dropWhile strippable = https ++ (place ++ rest) := by
    have start : https = 'h' :: "ttps://".toList := by decide
    rw [start, List.cons_append, List.dropWhile_cons_of_neg (by decide)]
  have leading : clean https = https := by decide
  have kept : ∀ c, (!removable c) = false → hostChar c = true := by
    intro c removed
    simp only [removable, Bool.not_eq_false', Bool.or_eq_true, decide_eq_true_eq] at removed
    rcases removed with (rfl | rfl) | rfl <;> decide
  have cut := span_unique chars stops
  have name : (clean (place ++ rest)).takeWhile hostChar = clean place := by
    rw [clean, takeWhile_filter kept, cut.1, clean]
  have others : (clean (place ++ rest)).dropWhile hostChar = clean rest := by
    rw [clean, dropWhile_filter kept, cut.2, clean]
  have params : "https".toList ∈ usesParams := by decide
  rw [urlparse, urlsplit, front, clean_append, leading, splitScheme_https]
  simp only [List.isPrefixOf, BEq.rfl, Bool.and_self, if_true, List.drop_succ_cons, List.drop_zero, name, others]
  split
  · rfl
  · rw [Option.map_some]
    simp only [params, true_and]
    split
    · rfl
    · next plain => rw [partsOf, dropParams_plain plain]

/-! The host and the port. -/

variable {parsed : ParseResult}

theorem hostinfo_plain (plain : '@' ∉ parsed.netloc) :
    parsed.hostinfo =
      if '[' ∈ parsed.netloc then
        (before ']' (after '[' parsed.netloc), after ':' (after ']' (after '[' parsed.netloc)))
      else (before ':' parsed.netloc, after ':' parsed.netloc) := by
  have whole : (parsed.netloc.rtakeWhile fun c => decide (c ≠ '@')) = parsed.netloc := by
    rw [List.rtakeWhile_eq_self_iff]
    intro c inside
    rw [decide_eq_true_eq]
    rintro rfl
    exact plain inside
  unfold ParseResult.hostinfo
  rw [whole]

theorem hostinfo_iff (plain : '@' ∉ parsed.netloc) (named : hostPattern host = true) :
    parsed.hostinfo = (host, []) ↔ Names parsed.netloc host := by
  have absent : ∀ c, labelChar c = false → c ≠ '.' → c ∉ host := fun c => not_mem_host named
  have colon := absent ':' (by decide) (by decide)
  have opening := absent '[' (by decide) (by decide)
  have closing := absent ']' (by decide) (by decide)
  rw [hostinfo_plain plain]
  constructor
  · intro read
    split at read
    next bracket =>
      obtain ⟨name, port⟩ := Prod.mk.inj read
      refine .inr (.inr ⟨before '[' parsed.netloc, after '[' parsed.netloc, before_cons_after bracket, not_mem_before, ?_⟩)
      by_cases closed : ']' ∈ after '[' parsed.netloc
      · refine .inr ⟨after ']' (after '[' parsed.netloc), ?_, port⟩
        conv_lhs => rw [before_cons_after closed, name]
      · rw [(before_eq_self closed).1] at name
        exact .inl name
    next bare =>
      obtain ⟨name, port⟩ := Prod.mk.inj read
      rw [after_eq_nil, name] at port
      rcases port with same | same
      · exact .inl same
      · exact .inr (.inl same)
  · rintro (same | same | ⟨front, inner, same, bare, filled⟩)
    · rw [same, if_neg opening, (before_eq_self colon).1, (before_eq_self colon).2]
    · rw [same, if_neg (by simp [opening]), (before_append colon).1, (before_append colon).2]
    · rw [same, if_pos (List.mem_append_right _ List.mem_cons_self), (before_append bare).2]
      rcases filled with rfl | ⟨back, rfl, port⟩
      · rw [(before_eq_self closing).1, (before_eq_self closing).2]
        rfl
      · rw [(before_append closing).1, (before_append closing).2, port]

theorem mem_hostinfo {c : Char} (plain : '@' ∉ parsed.netloc) (inside : c ∈ parsed.hostinfo.1) : c ∈ parsed.netloc := by
  rw [hostinfo_plain plain] at inside
  split at inside
  · exact mem_of_mem_after (mem_of_mem_before inside)
  · exact mem_of_mem_before inside

/-- A host name in lower case is read as it stands. -/
theorem hostname_iff (plain : '@' ∉ parsed.netloc) (fixed : ∀ c ∈ parsed.netloc, lib.lower [c] = [c])
    (named : hostPattern host = true) : parsed.hostname lib = some host ↔ parsed.hostinfo.1 = host := by
  have percent : '%' ∉ host := not_mem_host named (by decide) (by decide)
  have kept : lib.lower parsed.hostinfo.1 = parsed.hostinfo.1 :=
    (lib.lower_eq _).mpr fun c inside => fixed c (mem_hostinfo plain inside)
  unfold ParseResult.hostname
  constructor
  · intro read
    dsimp only at read
    split at read
    next => cases read
    next =>
      split at read
      next =>
        refine absurd ?_ percent
        rw [← Option.some.inj read]
        exact List.mem_append_right _ List.mem_cons_self
      next =>
        rw [kept] at read
        exact Option.some.inj read
  · intro same
    dsimp only
    rw [if_neg (by rw [same]; exact (host_chars named).1), if_neg (by rw [same]; exact percent), kept, same]

theorem port_iff : parsed.port = some none ↔ parsed.hostinfo.2 = [] := by
  unfold ParseResult.port
  constructor
  · intro read
    dsimp only at read
    split at read
    next none => exact none
    next =>
      split at read
      next => cases read
      next => cases read
  · intro none
    dsimp only
    rw [if_pos none]

theorem rawHost_https (chars : ∀ c ∈ place, hostChar c = true) (stops : Stops hostChar rest) (plain : '@' ∉ place) :
    rawHost (https ++ (place ++ rest)) = if place = [] then none else some place := by
  have whole : (place.rtakeWhile fun c => decide (c ≠ '@')) = place := by
    rw [List.rtakeWhile_eq_self_iff]
    intro c inside
    rw [decide_eq_true_eq]
    rintro rfl
    exact plain inside
  unfold rawHost
  rw [afterHttps_eq_some.mpr rfl]
  dsimp only
  rw [(span_unique chars stops).1, whole]

/-! What `IngestEndpoint.parse` returns and raises. -/

theorem not_raises_urlparse (quiet : ¬Raises lib text) : ∃ parsed, urlparse lib text = some parsed := by
  cases read : urlparse lib text with
  | none => exact absurd (.inl read) quiet
  | some parsed => exact ⟨parsed, rfl⟩

/-- What is accepted is a relaxed text. -/
theorem relaxed_of_parse {origin : String} (accepted : parse lib text = .ok origin) :
    ¬Raises lib text ∧ ∃ host, RelaxedText lib text host ∧ origin = originOf host := by
  unfold parse at accepted
  cases read : urlparse lib text with
  | none =>
    rw [read] at accepted
    cases accepted
  | some parsed =>
    rw [read] at accepted
    dsimp only at accepted
    rw [check_eq_ok, check_eq_ok] at accepted
    obtain ⟨scheme, userinfo, accepted⟩ := accepted
    cases port : parsed.port with
    | none =>
      rw [port] at accepted
      cases accepted
    | some port_ =>
      have quiet : ¬Raises lib text := by
        rintro (none | ⟨same, found, -, -, failed⟩)
        · rw [read] at none
          cases none
        · rw [read] at found
          cases found
          rw [port] at failed
          cases failed
      refine ⟨quiet, ?_⟩
      rw [port] at accepted
      cases port_ with
      | some number => cases accepted
      | none =>
        dsimp only at accepted
        rw [check_eq_ok, check_eq_ok] at accepted
        obtain ⟨query, fragment, accepted⟩ := accepted
        cases found : afterHttps text with
        | none =>
          rw [rawHost, found] at accepted
          cases accepted
        | some whole =>
          obtain rfl := afterHttps_eq_some.mp found
          -- the text is cut where its host ends
          have chars : ∀ c ∈ whole.takeWhile hostChar, hostChar c = true := fun c => List.mem_takeWhile_imp
          have stops : Stops hostChar (whole.dropWhile hostChar) := stops_dropWhile
          have cut : whole = whole.takeWhile hostChar ++ whole.dropWhile hostChar := List.takeWhile_append_dropWhile.symm
          generalize whole.takeWhile hostChar = place at cut chars
          generalize whole.dropWhile hostChar = rest at cut stops
          subst cut
          rw [urlparse_https chars stops] at read
          split at read
          next => cases read
          next =>
            obtain rfl := Option.some.inj read
            have plain : '@' ∉ clean place := fun inside => userinfo (decide_eq_true inside)
            have bare : '@' ∉ place := fun inside => plain (mem_clean.mpr ⟨inside, by decide⟩)
            rw [rawHost_https chars stops bare] at accepted
            split at accepted
            next => cases accepted
            next raw none =>
              split at none
              next => cases none
              next =>
                obtain rfl := Option.some.inj none
                rw [check_eq_ok, check_eq_ok] at accepted
                obtain ⟨dot, lower, accepted⟩ := accepted
                have lowered : lib.lower place = place := (Classical.not_not.mp lower).symm
                split at accepted
                next => cases accepted
                next hostname named =>
                  rw [check_eq_ok, check_eq_ok] at accepted
                  obtain ⟨pattern, path, made⟩ := accepted
                  have host : hostPattern hostname = true := by simpa using pattern
                  have fixed : ∀ c ∈ (partsOf place rest).netloc, lib.lower [c] = [c] := fun c inside =>
                    (lib.lower_eq place).mp lowered c (mem_clean.mp inside).1
                  have name := (hostname_iff plain fixed host).mp named
                  have names := (@hostinfo_iff hostname (partsOf place rest) plain host).mp
                    (Prod.ext name (port_iff.mp port))
                  obtain ⟨tail, marked, marks⟩ := marks_of_empty (Classical.not_not.mp query) (Classical.not_not.mp fragment)
                  obtain ⟨params, extra, split⟩ := dropParams_cut (before '?' (before '#' (clean rest)))
                  refine ⟨hostname, ⟨host, place, rest, rfl, chars, stops, names, bare, lowered, dot, _,
                    Classical.not_not.mp path, params, extra, ?_, tail, marked, ?_⟩, (Except.ok.inj made).symm⟩
                  · intro c inside
                    have within : c ∈ before '?' (before '#' (clean rest)) := by
                      rw [split]
                      exact List.mem_append_right _ inside
                    simp only [pathChar, Bool.and_eq_true, decide_eq_true_eq]
                    constructor
                    · rintro rfl
                      exact not_mem_before within
                    · rintro rfl
                      exact not_mem_before (mem_of_mem_before within)
                  · rw [← List.append_assoc]
                    conv_lhs => rw [marks, split]
                    rfl

/-- A relaxed text is accepted unless the library raises. -/
theorem parse_of_relaxed (quiet : ¬Raises lib text) (relaxed : RelaxedText lib text host) :
    parse lib text = .ok (originOf host) := by
  obtain ⟨named, place, rest, rfl, chars, stops, names, bare, lowered, dot, path, listed, params, extra, inPath, tail,
    marked, cut⟩ := relaxed
  obtain ⟨parsed, read⟩ := not_raises_urlparse quiet
  have parts := read
  rw [urlparse_https chars stops] at parts
  split at parts
  next => cases parts
  next =>
    obtain rfl := Option.some.inj parts
    have plain : '@' ∉ (partsOf place rest).netloc := fun inside => bare (mem_clean.mp inside).1
    have info := (hostinfo_iff plain named).mpr names
    have fixed : ∀ c ∈ (partsOf place rest).netloc, lib.lower [c] = [c] := fun c inside =>
      (lib.lower_eq place).mp lowered c (mem_clean.mp inside).1
    have hostname := (hostname_iff plain fixed named).mpr (by rw [info])
    have port := (@port_iff (partsOf place rest)).mpr (by rw [info])
    have filled : place ≠ [] := by
      rintro rfl
      have empty : ∀ c, c ∉ clean [] := by simp [clean]
      rcases names with same | same | ⟨front, inner, same, -⟩
      · exact (host_chars named).1 same.symm
      · exact empty ':' (same ▸ List.mem_append_right _ List.mem_cons_self)
      · exact empty '[' (same ▸ List.mem_append_right _ List.mem_cons_self)
    have inFront : ∀ c ∈ path ++ params, pathChar c = true := by
      intro c inside
      rcases List.mem_append.mp inside with inside | inside
      · exact (path_chars listed).1 c inside
      · exact inPath c inside
    rw [← List.append_assoc] at cut
    obtain ⟨front, query, fragment⟩ := marks_cut inFront marked
    rw [← cut] at front query fragment
    have semicolon : ';' ∉ path := by
      simp only [acceptedPaths, List.mem_cons, List.not_mem_nil, or_false] at listed
      rcases listed with rfl | rfl | rfl <;> decide
    have accepted : (partsOf place rest).path ∈ acceptedPaths := by
      rw [partsOf, front, dropParams_append semicolon extra]
      exact listed
    unfold parse
    rw [read]
    dsimp only
    rw [check_eq_ok, check_eq_ok]
    refine ⟨not_not.mpr rfl, by simpa [ParseResult.hasUserinfo] using plain, ?_⟩
    rw [port]
    dsimp only
    rw [check_eq_ok, check_eq_ok]
    refine ⟨not_not.mpr query, not_not.mpr fragment, ?_⟩
    rw [rawHost_https chars stops bare, if_neg filled]
    dsimp only
    rw [check_eq_ok, check_eq_ok]
    refine ⟨dot, not_not.mpr lowered.symm, ?_⟩
    rw [hostname]
    dsimp only
    rw [check_eq_ok, check_eq_ok]
    exact ⟨by simp [named], not_not.mpr accepted, rfl⟩

/-- A check that does not raise a `ValueError`. -/
theorem check_eq_value {α : Type} {broken : Prop} [Decidable broken] {message : String} {rest : Except ParseError α} :
    (if broken then .error (.configuration message) else rest) = .error .value ↔ ¬broken ∧ rest = .error .value := by
  by_cases holds : broken
  · rw [if_pos holds]
    exact iff_of_false (by simp) fun both => both.1 holds
  · rw [if_neg holds]
    exact ⟨fun raised => ⟨holds, raised⟩, And.right⟩

/-- A `ValueError` gets through exactly where the library raises one. -/
theorem parse_eq_value : parse lib text = .error .value ↔ Raises lib text := by
  unfold parse
  cases read : urlparse lib text with
  | none => exact iff_of_true rfl (.inl read)
  | some parsed =>
    dsimp only
    rw [check_eq_value, check_eq_value]
    have only : Raises lib text ↔
        parsed.scheme = "https".toList ∧ parsed.hasUserinfo = false ∧ parsed.port = none := by
      simp [Raises, read]
    rw [only]
    refine and_congr not_not (and_congr (by simp) ?_)
    cases parsed.port with
    | none => simp
    | some port =>
      refine iff_of_false ?_ (by simp)
      cases port with
      | some number => simp
      | none =>
        dsimp only
        rw [check_eq_value, check_eq_value]
        rintro ⟨-, -, raised⟩
        split at raised
        next => cases raised
        next =>
          rw [check_eq_value, check_eq_value] at raised
          obtain ⟨-, -, raised⟩ := raised
          split at raised
          next => cases raised
          next =>
            rw [check_eq_value, check_eq_value] at raised
            exact absurd raised.2.2 (by simp)

end Audr.PyChargebee
