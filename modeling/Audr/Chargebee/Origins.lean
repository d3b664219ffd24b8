import Audr.PyChargebee.IngestUrl

/-! Where both sinks accept exactly the ingest URLs they are meant to. -/

namespace Audr.Chargebee

open Cuts
open PyChargebee (UrlLibrary RelaxedText Raises clean)

/-- The Python sink returns the origins of ingest URLs and refuses everything else with its own error,
and the TypeScript sink accepts the same texts. -/
structure ExactFor (lib : UrlLibrary) (parser : UrlParser) (text : List Char) : Prop where
  only : ∀ origin, PyChargebee.parse lib text = .ok origin ↔ ∃ host, IngestText text host ∧ origin = originOf host
  quiet : PyChargebee.parse lib text ≠ .error .value
  same : ∀ origin, parseIngestUrl parser text = .ok origin ↔ PyChargebee.parse lib text = .ok origin

variable {lib : UrlLibrary} {parser : UrlParser} {text host path tail : List Char}

theorem originOf_inj {other : List Char} (same : originOf host = originOf other) : host = other :=
  List.append_cancel_left (String.ofList_injective same)

theorem stops_marker (marked : tail ∈ markers) : Stops pathChar tail := by
  simp only [markers, List.mem_cons, List.not_mem_nil, or_false] at marked
  rcases marked with rfl | rfl | rfl | rfl
  · exact stops_nil
  all_goals exact stops_cons.mpr (by decide)

/-- An ingest URL is nothing that is trimmed or cleaned. -/
theorem ingest_untouched (listed : path ∈ acceptedPaths) (marked : tail ∈ markers) :
    trimmed tail = tail ∧ clean (path ++ tail) = path ++ tail := by
  have kept : ∀ part ∈ acceptedPaths ++ markers, part.all (fun c => !removable c) = true := by decide
  have front : clean path = path :=
    List.filter_eq_self.mpr (List.all_eq_true.mp (kept path (List.mem_append_left _ listed)))
  have back : clean tail = tail :=
    List.filter_eq_self.mpr (List.all_eq_true.mp (kept tail (List.mem_append_right _ marked)))
  refine ⟨?_, by rw [PyChargebee.clean_append, front, back]⟩
  simp only [markers, List.mem_cons, List.not_mem_nil, or_false] at marked
  rcases marked with rfl | rfl | rfl | rfl <;> decide

theorem IngestText.spaced (ingest : IngestText text host) : SpacedText text host := by
  obtain ⟨named, path, listed, tail, marked, written⟩ := ingest
  exact ⟨named, path, listed, tail, stops_marker marked, by rwa [(ingest_untouched listed marked).1], written⟩

theorem clean_host (named : hostPattern host = true) : clean host = host := by
  refine List.filter_eq_self.mpr fun c inside => ?_
  simp only [removable, Bool.not_eq_true', Bool.or_eq_false_iff, decide_eq_false_iff_not]
  refine ⟨⟨?_, ?_⟩, ?_⟩ <;> rintro rfl <;> exact not_mem_host named (by decide) (by decide) inside

theorem IngestText.relaxed (ingest : IngestText text host) : RelaxedText lib text host := by
  obtain ⟨named, path, listed, tail, marked, written⟩ := ingest
  have lowered : lib.lower host = host :=
    (lib.lower_eq host).mpr fun c inside => lib.lower_ascii c (host_ascii named c inside).1 (host_ascii named c inside).2
  exact ⟨named, host, path ++ tail, written, (host_chars named).2, stops_path listed (stops_marker marked),
    .inl (clean_host named), not_mem_host named (by decide) (by decide), lowered, host_last named, path, listed, [],
    .inl rfl, by simp, tail, marked, (ingest_untouched listed marked).2⟩

/-- The library raises nothing on an ingest URL. -/
theorem IngestText.quiet (ingest : IngestText text host) : ¬Raises lib text := by
  obtain ⟨named, path, listed, tail, marked, rfl⟩ := ingest
  have absent : ∀ c, labelChar c = false → c ≠ '.' → c ∉ host := fun c => not_mem_host named
  have read := @PyChargebee.urlparse_https lib host (path ++ tail) (host_chars named).2
    (stops_path listed (stops_marker marked))
  have brackets : PyChargebee.misbracketed lib host = false := by
    rw [PyChargebee.misbracketed, if_neg (absent '[' (by decide) (by decide))]
    exact decide_eq_false (absent ']' (by decide) (by decide))
  have ascii : host.any (fun c => decide (128 ≤ c.toNat)) = false := by
    rw [List.any_eq_false]
    intro c inside
    have small := (host_ascii named c inside).1
    simpa using small
  have plain : PyChargebee.expands lib host = false := by
    rw [PyChargebee.expands, ascii]
    rfl
  rw [clean_host named, brackets, plain] at read
  rintro (none | ⟨parsed, found, -, -, failed⟩)
  · rw [read] at none
    cases none
  · rw [read] at found
    cases found
    have netloc : (PyChargebee.partsOf host (path ++ tail)).netloc = host := clean_host named
    have unnamed : '@' ∉ (PyChargebee.partsOf host (path ++ tail)).netloc := by
      rw [netloc]
      exact absent '@' (by decide) (by decide)
    have info := (PyChargebee.hostinfo_iff unnamed named).mpr (.inl netloc)
    rw [PyChargebee.port_iff.mpr (by rw [info])] at failed
    cases failed

/-- Both sinks are exact for a text unless the library raises, or the text is a relaxed or a spaced
one that is no ingest URL, or the platform has another name for its host. -/
theorem ingestUrl_exact_iff (lib : UrlLibrary) (parser : UrlParser) (text : List Char) :
    ExactFor lib parser text ↔ ¬Raises lib text ∧ (∀ host, RelaxedText lib text host → IngestText text host) ∧
      (∀ host, SpacedText text host → parser.host host = some host → IngestText text host) ∧
      ∀ host, IngestText text host → parser.host host = some host := by
  constructor
  · rintro ⟨only, quiet, same⟩
    have silent : ¬Raises lib text := fun raises => quiet (PyChargebee.parse_eq_value.mpr raises)
    have ingest : ∀ host, PyChargebee.parse lib text = .ok (originOf host) → IngestText text host := by
      intro host accepted
      obtain ⟨other, ingest, origin⟩ := (only _).mp accepted
      rwa [originOf_inj origin]
    refine ⟨silent, fun host relaxed => ingest host (PyChargebee.parse_of_relaxed silent relaxed), ?_, ?_⟩
    · intro host spaced kept
      exact ingest host ((same _).mp (parseIngestUrl_eq_ok.mpr ⟨host, spaced, kept, rfl⟩))
    · intro host listed
      have accepted := (same _).mpr ((only _).mpr ⟨host, listed, rfl⟩)
      obtain ⟨other, -, kept, origin⟩ := parseIngestUrl_eq_ok.mp accepted
      rwa [originOf_inj origin]
  · rintro ⟨quiet, strict, unspaced, kept⟩
    have only : ∀ origin, PyChargebee.parse lib text = .ok origin ↔ ∃ host, IngestText text host ∧ origin = originOf host := by
      intro origin
      constructor
      · intro accepted
        obtain ⟨-, host, relaxed, made⟩ := PyChargebee.relaxed_of_parse accepted
        exact ⟨host, strict host relaxed, made⟩
      · rintro ⟨host, ingest, rfl⟩
        exact PyChargebee.parse_of_relaxed quiet ingest.relaxed
    refine ⟨only, fun raised => quiet (PyChargebee.parse_eq_value.mp raised), fun origin => ?_⟩
    rw [only, parseIngestUrl_eq_ok]
    constructor
    · rintro ⟨host, spaced, same, made⟩
      exact ⟨host, unspaced host spaced same, made⟩
    · rintro ⟨host, ingest, made⟩
      exact ⟨host, ingest.spaced, kept host ingest, made⟩

/-- Lower case of ASCII, no normal forms and no brackets. -/
def asciiLibrary : UrlLibrary where
  lower := List.map Char.toLower
  normalize := id
  bracketed _ := false
  lower_eq text := by
    induction text with
    | nil => simp
    | cons c rest ih => simp [ih]
  lower_ascii c _ upper := by
    have outside : ¬(c.val ≥ 'A'.val ∧ c.val ≤ 'Z'.val) := of_decide_eq_false upper
    have kept : c.toLower = c := dif_neg outside
    exact congrArg (fun c => [c]) kept

/-- A platform that keeps every host name. -/
def plainParser : UrlParser where
  parse text :=
    (afterHttps text).map fun rest =>
      let tail := trimmed ((rest.dropWhile hostChar).dropWhile pathChar)
      { protocol := "https:"
        username := ""
        password := ""
        hostname := rest.takeWhile hostChar
        search := if queryOf tail = [] then "" else "?"
        hash := if fragmentOf tail = [] then "" else "#" }
  host := some
  toLowerCase := asciiLibrary.lower
  refuses name path tail _ _ _ none := by cases none
  reads name path tail hostname named listed ends same := by
    cases same
    obtain ⟨hostCut, -, tailCut⟩ := cut_ingest named listed ends
    refine ⟨_, by rw [afterHttps_eq_some.mpr rfl]; rfl, rfl, rfl, rfl, hostCut, ?_, ?_⟩
    · dsimp only
      rw [tailCut]
      split <;> simp_all
    · dsimp only
      rw [tailCut]
      split <;> simp_all
  lowers name named :=
    (asciiLibrary.lower_eq name).mpr fun c inside =>
      asciiLibrary.lower_ascii c (host_ascii named c inside).1 (host_ascii named c inside).2

/-- An empty port is accepted in Python. -/
theorem ingestUrl_emptyPort : ¬ExactFor asciiLibrary plainParser "https://acme.ingest.chargebee.com:".toList := by
  intro exact
  have accepted : PyChargebee.parse asciiLibrary "https://acme.ingest.chargebee.com:".toList =
      .ok "https://acme.ingest.chargebee.com" := by decide +kernel
  obtain ⟨host, ⟨named, path, listed, tail, marked, written⟩, -⟩ := (exact.only _).mp accepted
  have cut := (cut_ingest named listed (stops_marker marked)).1
  have rest : host ++ (path ++ tail) = "acme.ingest.chargebee.com:".toList := List.append_cancel_left written.symm
  rw [rest] at cut
  rw [← cut] at named
  exact absurd named (by decide +kernel)

end Audr.Chargebee
