import Iptv.Player.AbsoluteUrls

namespace Iptv.Player

/-- `scheme://authority[path][?query][#fragment]`, taken apart. -/
structure BaseUrl where
  scheme : Text
  authority : Text
  path : Text
  query : Option Text
  fragment : Option Text
  http : scheme ∈ [text "http", text "https"]
  authority_plain : ∀ c ∈ text "/?#", c ∉ authority
  path_rooted : path = [] ∨ ∃ rest, path = slash :: rest
  path_plain : ∀ c ∈ text "?#", c ∉ path
  query_plain : ∀ words ∈ query, byte '#' ∉ words

namespace BaseUrl

def origin (base : BaseUrl) : Text := base.scheme ++ text "://" ++ base.authority

/-- The query and the fragment with their marks. -/
def suffix (base : BaseUrl) : Text :=
  base.query.elim [] (byte '?' :: ·) ++ base.fragment.elim [] (byte '#' :: ·)

def toText (base : BaseUrl) : Text := base.origin ++ base.path ++ base.suffix

/-- The path up to its last slash. -/
def directory (base : BaseUrl) : Text :=
  match findLastOf base.path slash with
  | none => [slash]
  | some lastSlash => base.path.take (lastSlash + 1)

end BaseUrl

def isLetter (c : UInt8) : Bool := (65 ≤ c && c ≤ 90) || (97 ≤ c && c ≤ 122)

def isSchemeByte (c : UInt8) : Bool := isLetter c || isDigit c || (text "+-.").contains c

/-- A letter and further scheme bytes in front of a colon. -/
def hasScheme (uri : Text) : Bool :=
  match find uri (byte ':') 0 with
  | none => false
  | some colon => (uri.head?.any isLetter) && (uri.take colon).all isSchemeByte

def RootRelative (uri : Text) : Prop :=
  startsWith uri (text "/") = true ∧ startsWith uri (text "//") = false

def PathRelative (uri : Text) : Prop :=
  hasScheme uri = false ∧ ∃ c rest, uri = c :: rest ∧ c ∉ text "/?#"

/-- What a URI reference resolves to, up to the removal of dot segments. -/
structure ResolvesAsReference (base : BaseUrl) (uri : Text) : Prop where
  absolute : isAbsolute uri = true → resolveUrl base.toText uri = uri
  rootRelative : RootRelative uri → resolveUrl base.toText uri = base.origin ++ uri
  pathRelative : PathRelative uri → resolveUrl base.toText uri = base.origin ++ base.directory ++ uri
  unqueried : resolveUrl base.toText uri = resolveUrl (base.origin ++ base.path) uri

/-- The raw slashes of the base are where its path puts them. -/
structure SlashesInPath (base : BaseUrl) (uri : Text) : Prop where
  rooted : startsWith uri (text "/") = true → base.path = [] → base.suffix = []
  suffix : startsWith uri (text "/") = false → slash ∉ base.suffix
  directory : PathRelative uri → base.path ≠ []

theorem hasScheme_of_absolute {uri : Text} (absolute : isAbsolute uri = true) : hasScheme uri = true := by
  obtain ⟨scheme, known, front⟩ := isAbsolute_iff.mp absolute
  obtain ⟨rest, whole⟩ := front.starts
  have cut : uri.drop 0 = scheme ++ byte ':' :: (text "//" ++ rest) := by
    rw [← whole]
    exact List.append_assoc _ _ _
  have colon := find_of_split cut front.plain
  rw [List.drop_zero] at cut
  rw [hasScheme, colon, cut]
  simp only [Nat.zero_add, List.take_left]
  simp only [List.mem_cons, List.not_mem_nil, or_false] at known
  rcases known with rfl | rfl
  · rfl
  · rfl

theorem PathRelative.not_absolute {uri : Text} (relative : PathRelative uri) : isAbsolute uri = false := by
  by_contra absolute
  rw [Bool.not_eq_false] at absolute
  have own := hasScheme_of_absolute absolute
  rw [relative.1] at own
  exact Bool.noConfusion own

theorem startsWith_slash {uri : Text} : startsWith uri (text "/") = true ↔ ∃ rest, uri = slash :: rest := by
  rw [startsWith_iff]
  constructor
  · rintro ⟨rest, rfl⟩
    exact ⟨rest, rfl⟩
  · rintro ⟨rest, rfl⟩
    exact ⟨rest, rfl⟩

theorem PathRelative.not_rooted {uri : Text} (relative : PathRelative uri) :
    startsWith uri (text "/") = false := by
  obtain ⟨_, c, rest, rfl, plain⟩ := relative
  by_contra rooted
  rw [Bool.not_eq_false, startsWith_slash] at rooted
  obtain ⟨_, same⟩ := rooted
  obtain ⟨rfl, _⟩ := List.cons.inj same
  exact plain (by decide)

theorem not_absolute_of_rooted {uri : Text} (rooted : startsWith uri (text "/") = true) :
    isAbsolute uri = false := by
  obtain ⟨rest, rfl⟩ := startsWith_slash.mp rooted
  simp [isAbsolute, startsWith, text, List.isPrefixOf, byte, slash]

section Cut

variable {front tail uri : Text}

theorem resolvePathRelative_split {before after : Text} (absent : slash ∉ after) :
    resolvePathRelative (before ++ slash :: after) uri = before ++ slash :: uri := by
  have whole : before ++ slash :: after = (before ++ [slash]) ++ after := by simp
  have cut : (before ++ slash :: after).take (before.length + 1) = before ++ [slash] := by
    rw [whole, List.take_left' (by simp)]
  rw [resolvePathRelative, findLastOf_split absent]
  simp [cut]

theorem resolvePathRelative_append (member : slash ∈ tail) :
    resolvePathRelative (front ++ tail) uri = front ++ resolvePathRelative tail uri := by
  obtain ⟨before, after, rfl, absent⟩ := exists_last member
  rw [resolvePathRelative_split absent, ← List.append_assoc, resolvePathRelative_split absent,
    List.append_assoc]

theorem resolvePathRelative_plain (member : slash ∈ front) (absent : slash ∉ tail) :
    resolvePathRelative (front ++ tail) uri = resolvePathRelative front uri := by
  obtain ⟨before, after, rfl, last⟩ := exists_last member
  rw [resolvePathRelative_split last, List.append_assoc, List.cons_append,
    resolvePathRelative_split (by simp [last, absent])]

end Cut

theorem resolvePathRelative_length_le (front uri : Text) :
    (resolvePathRelative front uri).length ≤ front.length + uri.length := by
  unfold resolvePathRelative
  split
  · omega
  · rw [List.length_append, List.length_take]
    omega

theorem resolvePathRelative_length_gt {tail : Text} (uri : Text) (member : slash ∈ tail) :
    uri.length < (resolvePathRelative tail uri).length := by
  obtain ⟨before, after, rfl, absent⟩ := exists_last member
  rw [resolvePathRelative_split absent, List.length_append, List.length_cons]
  omega

theorem slash_mem_origin (base : BaseUrl) : slash ∈ base.origin := by
  have mark : slash ∈ text "://" := by decide
  simp [BaseUrl.origin, mark]

theorem BaseUrl.front (base : BaseUrl) {tail : Text} : Scheme base.scheme (base.origin ++ tail) where
  starts := ⟨base.authority ++ tail, by simp [BaseUrl.origin]⟩
  plain := by
    have known := base.http
    simp only [List.mem_cons, List.not_mem_nil, or_false] at known
    rcases known with same | same
    · rw [same]
      decide
    · rw [same]
      decide

theorem BaseUrl.slash_authority (base : BaseUrl) : slash ∉ base.authority :=
  base.authority_plain _ (by decide)

theorem bne_of_absent {t : Text} {c : UInt8} (absent : c ∉ t) : ∀ x ∈ t, (x != c) = true := by
  intro x inside
  rw [bne_iff_ne]
  rintro rfl
  exact absent inside

/-- What stays of the base is everything in front of the first slash behind the scheme. -/
theorem resolveRootRelative_origin (base : BaseUrl) (tail uri : Text) :
    resolveRootRelative (base.origin ++ tail) uri = base.origin ++ tail.takeWhile (· != slash) ++ uri := by
  have marks : (text "://").length = 3 := by decide
  have width : (base.origin ++ tail).drop (base.scheme.length + 3) = base.authority ++ tail := by
    rw [BaseUrl.origin, List.append_assoc, List.drop_left' (by simp [marks])]
  rw [resolveRootRelative, findText_scheme base.front]
  simp only
  by_cases member : slash ∈ tail
  · obtain ⟨before, after, rfl, absent⟩ := List.eq_append_cons_of_mem member
    have plain : slash ∉ base.authority ++ before := by simp [base.slash_authority, absent]
    have rest : (base.origin ++ (before ++ slash :: after)).drop (base.scheme.length + 3) =
        (base.authority ++ before) ++ slash :: after := by
      rw [width]
      simp
    rw [find_of_split rest plain]
    have stop : (before ++ slash :: after).takeWhile (· != slash) = before :=
      (span_until (bne_of_absent absent) (by simp)).1
    have whole : base.origin ++ (before ++ slash :: after) = (base.origin ++ before) ++ slash :: after := by simp
    have long : base.scheme.length + 3 + (base.authority ++ before).length = (base.origin ++ before).length := by
      simp [BaseUrl.origin, marks]
      omega
    simp only [stop, whole, long, List.take_left]
  · have absent : slash ∉ (base.origin ++ tail).drop (base.scheme.length + 3) := by
      rw [width]
      simp [base.slash_authority, member]
    rw [find_none.mpr absent, List.takeWhile_eq_self_iff.mpr (bne_of_absent member)]

section Resolve

variable {base : BaseUrl} {tail uri : Text}

theorem findLastOf_origin : findLastOf (base.origin ++ tail) slash ≠ none := by
  have member : slash ∈ base.origin ++ tail := List.mem_append.mpr (.inl (slash_mem_origin base))
  obtain ⟨before, after, whole, absent⟩ := exists_last member
  rw [whole, findLastOf_split absent]
  exact Option.some_ne_none _

theorem resolveUrl_rooted (rooted : startsWith uri (text "/") = true) :
    resolveUrl (base.origin ++ tail) uri = base.origin ++ tail.takeWhile (· != slash) ++ uri := by
  rw [resolveUrl, not_absolute_of_rooted rooted, if_neg Bool.false_ne_true, if_neg findLastOf_origin,
    if_pos rooted, resolveRootRelative_origin]

theorem resolveUrl_unrooted (relative : isAbsolute uri = false) (unrooted : startsWith uri (text "/") = false) :
    resolveUrl (base.origin ++ tail) uri = resolvePathRelative (base.origin ++ tail) uri := by
  rw [resolveUrl, relative, if_neg Bool.false_ne_true, if_neg findLastOf_origin, unrooted,
    if_neg Bool.false_ne_true]

end Resolve

/-- The suffix is empty or begins with a question mark or a hash. -/
theorem BaseUrl.suffix_head (base : BaseUrl) : base.suffix = [] ∨ base.suffix.takeWhile (· != slash) ≠ [] := by
  cases query : base.query with
  | some words => exact .inr (by simp [suffix, query, byte, slash])
  | none =>
    cases fragment : base.fragment with
    | some words => exact .inr (by simp [suffix, query, fragment, byte, slash])
    | none => exact .inl (by simp [suffix, query, fragment])

theorem BaseUrl.toText_eq (base : BaseUrl) : base.toText = base.origin ++ (base.path ++ base.suffix) :=
  List.append_assoc _ _ _

theorem rooted_unqueried_iff {base : BaseUrl} {uri : Text} (rooted : startsWith uri (text "/") = true) :
    resolveUrl base.toText uri = resolveUrl (base.origin ++ base.path) uri ↔
      (base.path = [] → base.suffix = []) := by
  rw [base.toText_eq, resolveUrl_rooted rooted, resolveUrl_rooted rooted, List.append_cancel_right_eq,
    List.append_cancel_left_eq]
  rcases base.path_rooted with empty | ⟨rest, path⟩
  · rw [empty]
    simp only [List.nil_append, List.takeWhile_nil, true_imp_iff]
    constructor
    · intro none
      exact base.suffix_head.resolve_right (by simp [none])
    · intro none
      rw [none]
      rfl
  · simp [path]

theorem unrooted_unqueried_iff {base : BaseUrl} {uri : Text} (relative : isAbsolute uri = false)
    (unrooted : startsWith uri (text "/") = false) :
    resolveUrl base.toText uri = resolveUrl (base.origin ++ base.path) uri ↔ slash ∉ base.suffix := by
  rw [base.toText_eq, resolveUrl_unrooted relative unrooted, resolveUrl_unrooted relative unrooted,
    ← List.append_assoc]
  constructor
  · intro same member
    have short := resolvePathRelative_length_le (base.origin ++ base.path) uri
    have long := resolvePathRelative_length_gt uri member
    rw [← same, resolvePathRelative_append member, List.length_append] at short
    omega
  · exact resolvePathRelative_plain (List.mem_append.mpr (.inl (slash_mem_origin base)))

/-- In an empty path the last slash is the second one of the scheme. -/
theorem resolvePathRelative_origin (base : BaseUrl) (uri : Text) :
    resolvePathRelative base.origin uri = base.scheme ++ text "://" ++ uri := by
  have marks : text "://" = text ":/" ++ [slash] := by decide
  have whole : base.origin = (base.scheme ++ text ":/") ++ slash :: base.authority := by
    simp [BaseUrl.origin, marks]
  rw [whole, resolvePathRelative_split base.slash_authority, marks]
  simp

theorem pathRelative_iff {base : BaseUrl} {uri : Text} (relative : PathRelative uri) :
    resolveUrl (base.origin ++ base.path) uri = base.origin ++ base.directory ++ uri ↔ base.path ≠ [] := by
  rw [resolveUrl_unrooted relative.not_absolute relative.not_rooted]
  rcases base.path_rooted with empty | ⟨rest, path⟩
  · constructor
    · intro same
      have lengths := congrArg List.length same
      rw [empty, List.append_nil, resolvePathRelative_origin] at lengths
      simp [BaseUrl.origin, BaseUrl.directory, empty, findLastOf] at lengths
      omega
    · intro full
      exact absurd empty full
  · have member : slash ∈ base.path := by simp [path]
    obtain ⟨before, after, split, absent⟩ := exists_last member
    have directory : resolvePathRelative base.path uri = base.directory ++ uri := by
      rw [resolvePathRelative, BaseUrl.directory, split, findLastOf_split absent]
    rw [resolvePathRelative_append member, directory, List.append_assoc]
    simp [path]

/-- References resolve as they should whenever the slashes of the base are those of its path. -/
theorem resolvesAsReference_iff (base : BaseUrl) (uri : Text) :
    ResolvesAsReference base uri ↔ (isAbsolute uri = false → SlashesInPath base uri) := by
  constructor
  · intro right relative
    refine ⟨fun rooted => ?_, fun unrooted => ?_, fun inDirectory => ?_⟩
    · exact (rooted_unqueried_iff rooted).mp right.unqueried
    · exact (unrooted_unqueried_iff relative unrooted).mp right.unqueried
    · rw [← pathRelative_iff inDirectory, ← right.unqueried]
      exact right.pathRelative inDirectory
  · intro slashes
    by_cases absolute : isAbsolute uri = true
    · have kept := resolveUrl_of_absolute absolute
      refine ⟨fun _ => kept _, fun rooted => ?_, fun inDirectory => ?_, by rw [kept, kept]⟩
      · rw [not_absolute_of_rooted rooted.1] at absolute
        exact Bool.noConfusion absolute
      · rw [inDirectory.not_absolute] at absolute
        exact Bool.noConfusion absolute
    · have relative : isAbsolute uri = false := by simpa using absolute
      have good := slashes relative
      have unqueried : resolveUrl base.toText uri = resolveUrl (base.origin ++ base.path) uri := by
        by_cases rooted : startsWith uri (text "/") = true
        · exact (rooted_unqueried_iff rooted).mpr (good.rooted rooted)
        · have unrooted : startsWith uri (text "/") = false := by simpa using rooted
          exact (unrooted_unqueried_iff relative unrooted).mpr (good.suffix unrooted)
      refine ⟨fun own => absurd own absolute, fun rooted => ?_, fun inDirectory => ?_, unqueried⟩
      · rw [unqueried, resolveUrl_rooted rooted.1]
        rcases base.path_rooted with empty | ⟨rest, path⟩
        · simp [empty]
        · simp [path]
      · rw [unqueried]
        exact (pathRelative_iff inDirectory).mpr (good.directory inDirectory)

def hostOnly : BaseUrl where
  scheme := text "http"
  authority := text "host"
  path := []
  query := none
  fragment := none
  http := by decide
  authority_plain := by decide +kernel
  path_rooted := .inl rfl
  path_plain := by decide +kernel
  query_plain := by simp

def slashInQuery : BaseUrl where
  scheme := text "http"
  authority := text "host"
  path := text "/live/m.m3u8"
  query := some (text "token=a/b")
  fragment := none
  http := by decide
  authority_plain := by decide +kernel
  path_rooted := .inr ⟨_, rfl⟩
  path_plain := by decide +kernel
  query_plain := by decide

/-- The host is cut off for want of a path, and the query is taken for a directory. -/
theorem not_resolvesAsReference :
    (hostOnly.toText = text "http://host" ∧ resolveUrl (text "http://host") (text "a.ts") = text "http://a.ts" ∧
      ¬ResolvesAsReference hostOnly (text "a.ts")) ∧
    (slashInQuery.toText = text "http://host/live/m.m3u8?token=a/b" ∧
      resolveUrl (text "http://host/live/m.m3u8?token=a/b") (text "a.ts") =
        text "http://host/live/m.m3u8?token=a/a.ts" ∧
      ¬ResolvesAsReference slashInQuery (text "a.ts")) := by
  have relative : PathRelative (text "a.ts") := ⟨by decide, _, _, rfl, by decide⟩
  refine ⟨⟨by decide, by decide, fun right => ?_⟩, ⟨by decide, by decide, fun right => ?_⟩⟩
  · have wrong := right.pathRelative relative
    revert wrong
    decide
  · have wrong := right.pathRelative relative
    revert wrong
    decide

end Iptv.Player
