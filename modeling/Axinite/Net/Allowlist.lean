import Axinite.Foundation.DotSegments
import Axinite.Foundation.Fallible
import Mathlib.Data.List.Flatten
import Mathlib.Data.List.Forall2

/-!
# Endpoint allowlist of WASM tools

A WASM tool may only send requests to the endpoints of its allowlist.  The validator parses
the URL, normalises its path and looks for a pattern that matches host, path and method.

The parser of the `url` crate and the case mappings of Unicode are outside of the program
and enter as the record `Platform`.  Texts are lists of characters.

The resource behind a path is defined apart from the normalisation: the segments between the
slashes are decoded, and the dot segments among them are rewritten away (`Addresses`).

Main results:

- Theorem `normalizePath_eq_ok_iff`: the normalised path prints the addressed resource.
- Theorem `normalizePath_twice_iff`: when a second normalisation changes nothing.
- Theorem `splitOn_render_prefix`: what a printed path has in front of a slash are leading
  names of the resource.
- Theorem `allowed_request_confined`: an allowed URL addresses a resource under the path of
  a matching pattern.
-/

namespace Axinite.Net.Allowlist

open Foundation.Fallible List
open Foundation.DotSegments

/-! ## Percent-encoding -/

/-- The value of an ASCII hexadecimal digit. -/
def hexValue (b : UInt8) : Option UInt8 :=
  if 48 ≤ b ∧ b ≤ 57 then some (b - 48)
  else if 65 ≤ b ∧ b ≤ 70 then some (b - 55)
  else if 97 ≤ b ∧ b ≤ 102 then some (b - 87)
  else none

def isAsciiHexdigit (b : UInt8) : Bool :=
  (hexValue b).isSome

/-- The byte `%`. -/
def percent : UInt8 := 37

/-- Every `%` is followed by two hexadecimal digits. -/
def hasValidPercentEncoding : List UInt8 → Bool
  | [] => true
  | b :: rest =>
    if b = percent then
      match rest with
      | high :: low :: rest =>
        isAsciiHexdigit high && isAsciiHexdigit low && hasValidPercentEncoding rest
      | _ => false
    else hasValidPercentEncoding rest

/-- The bytes that a percent-encoded text stands for; a `%` without two digits stands for
itself. -/
def decodeBinary : List UInt8 → List UInt8
  | [] => []
  | b :: high :: low :: rest =>
    if b = percent then
      match hexValue high, hexValue low with
      | some h, some l => (16 * h + l) :: decodeBinary rest
      | _, _ => b :: decodeBinary (high :: low :: rest)
    else b :: decodeBinary (high :: low :: rest)
  | b :: rest => b :: decodeBinary rest

def asBytes (text : List Char) : List UInt8 :=
  (String.ofList text).toUTF8.toList

/-- The decoded text, unless its bytes are not UTF-8. -/
def decode (text : List Char) : Option (List Char) :=
  (String.fromUTF8? ⟨(decodeBinary (asBytes text)).toArray⟩).map String.toList

theorem decodeBinary_cons {b : UInt8} (hb : b ≠ percent) (rest : List UInt8) :
    decodeBinary (b :: rest) = b :: decodeBinary rest := by
  rcases rest with _ | ⟨_, _ | _⟩ <;> simp [decodeBinary, hb]

/-- The bytes of a text without `%` stand for themselves. -/
theorem decodeBinary_of_notMem {text : List UInt8} (h : percent ∉ text) :
    hasValidPercentEncoding text = true ∧ decodeBinary text = text := by
  induction text with
  | nil => exact ⟨rfl, rfl⟩
  | cons b rest ih =>
    rw [mem_cons, not_or] at h
    have hb : b ≠ percent := symm h.1
    rw [hasValidPercentEncoding.eq_def, decodeBinary_cons hb]
    simpa [hb] using ih h.2

/-- Each escape stands for one byte instead of three. -/
theorem length_decodeBinary {bytes : List UInt8} (h : hasValidPercentEncoding bytes = true) :
    (decodeBinary bytes).length + 2 * bytes.count percent = bytes.length := by
  have hdigit : ∀ {b v}, hexValue b = some v → b ≠ percent := by
    rintro _ v h rfl
    cases h
  fun_induction hasValidPercentEncoding bytes with
  | case1 => rfl
  | case2 high low rest ih =>
    simp only [Bool.and_eq_true, isAsciiHexdigit, Option.isSome_iff_exists] at h
    obtain ⟨⟨⟨_, hhigh⟩, _, hlow⟩, hrest⟩ := h
    simp only [decodeBinary, hhigh, hlow, length_cons, count_cons_self,
      count_cons_of_ne (hdigit hhigh), count_cons_of_ne (hdigit hlow), ← ih hrest, if_true]
    omega
  | case3 => cases h
  | case4 b rest hb ih =>
    rw [decodeBinary_cons hb, count_cons_of_ne hb, length_cons, length_cons, ← ih h]
    omega

theorem toList_loop (bytes : ByteArray) (i : Nat) (read : List UInt8) :
    ByteArray.toList.loop bytes i read = read.reverse ++ bytes.data.toList.drop i := by
  fun_induction ByteArray.toList.loop _ i read with
  | case1 i read hi ih =>
    rw [ih, drop_eq_getElem_cons hi]
    simp [ByteArray.get!, getElem!_pos bytes.data i hi]
  | case2 i read hi => simp [drop_eq_nil_of_le (Nat.not_lt.1 hi)]

theorem asBytes_nil : asBytes [] = [] := by
  simp [asBytes]

/-- The bytes of a decoded segment are those that its text stands for. -/
theorem asBytes_of_decode {raw segment : List Char} (h : decode raw = some segment) :
    asBytes segment = decodeBinary (asBytes raw) := by
  obtain ⟨text, htext, rfl⟩ := Option.map_eq_some_iff.1 h
  unfold String.fromUTF8? at htext
  split at htext
  · cases htext
    simp [asBytes, String.fromUTF8, ByteArray.toList, toList_loop]
  · cases htext

/-! ## Normalisation of paths -/

/-- The loop over the raw segments, with the vector `segments` of the names so far. -/
def normalizeSegments (segments : List (List Char)) :
    List (List Char) → Except String (List (List Char))
  | [] => .ok segments
  | raw :: raws => do
    ensure (hasValidPercentEncoding (asBytes raw) = true)
      ("Invalid percent-encoding in path segment: " ++ String.ofList raw)
    let segment ← okOr (decode raw)
      ("Invalid percent-encoding in path segment: " ++ String.ofList raw)
    -- encoded separators are ambiguous for whoever reads the path later
    ensure ('/' ∉ segment ∧ '\\' ∉ segment) "Path segment contains encoded path separator"
    if segment = [] ∨ segment = ['.'] then normalizeSegments segments raws
    else if segment = ['.', '.'] then normalizeSegments segments.dropLast raws
    else normalizeSegments (segments ++ [segment]) raws

/-- The names behind a slash each, without a slash at the end. -/
def join (segments : List (List Char)) : List Char :=
  '/' :: ['/'].intercalate segments

/-- The original had a trailing slash and the normalisation dropped it. -/
def needsTrailingSlash (path result : List Char) : Bool :=
  (decide (1 < path.length) && path.getLast? == some '/') && result.getLast? != some '/'

def normalizePath (path : List Char) : Except String (List Char) := do
  let segments ← normalizeSegments [] (path.splitOn '/')
  let result := join segments
  if needsTrailingSlash path result = true then .ok (result ++ ['/']) else .ok result

/-! ## The resource behind a path -/

/-- The segment is decoded from a well-formed text, and has no separators. -/
def Decodes (raw segment : List Char) : Prop :=
  hasValidPercentEncoding (asBytes raw) = true ∧ decode raw = some segment ∧
    '/' ∉ segment ∧ '\\' ∉ segment

/-- A path addresses the names that are left when its decoded segments are resolved. -/
def Addresses (path : List Char) (names : List (List Char)) : Prop :=
  ∃ decoded, List.Forall₂ Decodes (path.splitOn '/') decoded ∧
    Resolves (decoded.map toPart) names

/-- A name in a path: not empty, not a dot segment, and without separators. -/
def IsName (segment : List Char) : Prop :=
  segment ≠ [] ∧ segment ≠ ['.'] ∧ segment ≠ ['.', '.'] ∧ '/' ∉ segment ∧ '\\' ∉ segment

/-- The path with the given names, with a slash at the end or without it. -/
def render (names : List (List Char)) (trailing : Bool) : List Char :=
  if trailing = true ∧ names ≠ [] then join names ++ ['/'] else join names

/-- The path ends with a slash that is not its first character. -/
def hasTrailingSlash (path : List Char) : Bool :=
  decide (1 < path.length) && path.getLast? == some '/'

theorem normalizeSegments_cons {stack result raws : List (List Char)} {raw : List Char} :
    normalizeSegments stack (raw :: raws) = .ok result ↔ ∃ segment, Decodes raw segment ∧
        normalizeSegments (resolve stack [toPart segment]) raws = .ok result := by
  have hparts : ∀ segment : List Char,
      (if segment = [] ∨ segment = ['.'] then normalizeSegments stack raws
        else if segment = ['.', '.'] then normalizeSegments stack.dropLast raws
        else normalizeSegments (stack ++ [segment]) raws) =
      normalizeSegments (resolve stack [toPart segment]) raws := by
    intro segment
    unfold toPart
    split
    · rfl
    · split <;> rfl
  simp [normalizeSegments, hparts, bind_eq_ok_iff, Decodes, and_assoc]

/-- The loop succeeds when all segments can be decoded, and resolves them on top of the
stack. -/
theorem normalizeSegments_eq_ok_iff {stack result raws : List (List Char)} :
    normalizeSegments stack raws = .ok result ↔ ∃ decoded, List.Forall₂ Decodes raws decoded ∧
        resolve stack (decoded.map toPart) = result := by
  induction raws generalizing stack with
  | nil => simp [normalizeSegments, resolve]
  | cons raw raws ih =>
    rw [normalizeSegments_cons]
    constructor
    · rintro ⟨segment, hdecodes, hrest⟩
      obtain ⟨decoded, hdecoded, hresolve⟩ := ih.1 hrest
      refine ⟨segment :: decoded, .cons hdecodes hdecoded, ?_⟩
      rw [map_cons, ← singleton_append, resolve_append, hresolve]
    · rintro ⟨_, _ | ⟨hdecodes, hdecoded⟩, hresolve⟩
      refine ⟨_, hdecodes, ih.2 ⟨_, hdecoded, ?_⟩⟩
      rwa [map_cons, ← singleton_append, resolve_append] at hresolve

/-- What a decoded segment contributes to a path is a name. -/
theorem isName_of_toPart {raw segment name : List Char} (hdecodes : Decodes raw segment)
    (h : toPart segment = .name name) : IsName name := by
  unfold toPart at h
  split at h
  · cases h
  · split at h
    · cases h
    · rename_i hdot hdotdot
      obtain rfl : segment = name := by simpa using h
      exact ⟨fun h => hdot (.inl h), fun h => hdot (.inr h), hdotdot, hdecodes.2.2⟩

theorem isName_of_addresses {path : List Char} {names : List (List Char)}
    (h : Addresses path names) : ∀ name ∈ names, IsName name := by
  obtain ⟨decoded, hdecoded, hresolves⟩ := h
  have hname : ∀ {raws decoded : List (List Char)}, List.Forall₂ Decodes raws decoded →
      ∀ name, PathPart.name name ∈ decoded.map toPart → IsName name := by
    intro raws decoded h
    induction h with
    | nil => simp
    | cons hdecodes _ ih =>
      intro name hmem
      rcases mem_cons.1 hmem with hfirst | hrest
      · exact isName_of_toPart hdecodes hfirst.symm
      · exact ih name hrest
  intro name hmem
  rw [← resolves_iff.1 hresolves] at hmem
  rcases mem_of_mem_resolve hmem with hnil | hpart
  · exact absurd hnil not_mem_nil
  · exact hname hdecoded name hpart

/-! ## Printed paths -/

section Printing

variable {names : List (List Char)} (hnames : ∀ name ∈ names, IsName name)

include hnames

theorem splitOn_join (hne : names ≠ []) : (join names).splitOn '/' = [] :: names := by
  have hfirst := splitOn_append_cons [] (['/'].intercalate names) '/'
  rwa [splitOn_intercalate '/' (fun name h => (hnames name h).2.2.2.1) hne] at hfirst

/-- Between the slashes of a printed path stand its names, and behind a slash at the end
nothing. -/
theorem splitOn_render (trailing : Bool) : ∃ rest, (rest = [] ∨ rest = [[]]) ∧
      (render names trailing).splitOn '/' = [] :: names ++ rest := by
  unfold render
  split
  · rename_i h
    refine ⟨[[]], .inr rfl, ?_⟩
    rw [splitOn_append_cons, splitOn_join hnames h.2]
    rfl
  · by_cases hne : names = []
    · subst hne
      exact ⟨[[]], .inr rfl, by decide⟩
    · exact ⟨[], .inl rfl, by rw [splitOn_join hnames hne, append_nil]⟩

/-- What a printed path has in front of a slash are leading names. -/
theorem splitOn_render_prefix {trailing : Bool} {front back : List Char}
    (h : front ++ '/' :: back = render names trailing) :
    front.splitOn '/' <+: [] :: names := by
  obtain ⟨rest, hrest, hsplit⟩ := splitOn_render hnames trailing
  have hparts := splitOn_append_cons front back '/'
  rw [h, hsplit] at hparts
  rcases hrest with rfl | rfl
  · rw [append_nil] at hparts
    exact ⟨_, hparts.symm⟩
  · -- the text behind the slash has a part of its own, so the last part belongs to it
    obtain ⟨parts, last, hback⟩ :=
      (eq_nil_or_concat (back.splitOn '/')).resolve_left (splitOnP_ne_nil _ _)
    rw [hback, concat_eq_append, ← append_assoc] at hparts
    exact ⟨parts, (append_inj_left' hparts rfl).symm⟩

theorem bytes_render (trailing : Bool) :
    ((render names trailing).splitOn '/').flatMap asBytes = names.flatMap asBytes := by
  obtain ⟨rest, rfl | rfl, hsplit⟩ := splitOn_render hnames trailing <;> simp [hsplit, asBytes_nil]

theorem needsTrailingSlash_join (path : List Char) :
    needsTrailingSlash path (join names) = true ↔ hasTrailingSlash path = true ∧ names ≠ [] := by
  have hlast : (join names).getLast? = some '/' ↔ names = [] := by
    constructor
    · intro h
      by_contra hne
      obtain ⟨front, hfront⟩ := List.getLast?_eq_some_iff.1 h
      have hsplit := splitOn_append_cons front [] '/'
      rw [← hfront, splitOn_join hnames hne] at hsplit
      obtain ⟨front', last, rfl⟩ := (eq_nil_or_concat names).resolve_left hne
      rw [concat_eq_append, ← cons_append] at hsplit
      have hempty : last = [] := by simpa using append_inj_right' hsplit rfl
      exact (hnames last (by simp)).1 hempty
    · rintro rfl
      rfl
  unfold needsTrailingSlash hasTrailingSlash
  rw [Bool.and_eq_true, bne_iff_ne, Ne, hlast]

theorem render_hasTrailingSlash (trailing : Bool) :
    render names (hasTrailingSlash (render names trailing)) = render names trailing := by
  by_cases h : trailing = true ∧ names ≠ []
  · have hslash : hasTrailingSlash (render names trailing) = true := by
      have hpos : 0 < (join names).length := Nat.succ_pos _
      simpa [render, h, hasTrailingSlash] using hpos
    rw [hslash, h.1]
  · have hjoin : render names trailing = join names := if_neg h
    rw [hjoin]
    exact if_neg (mt (needsTrailingSlash_join hnames _).2 (by simp [needsTrailingSlash]))

end Printing

/-- A path is normalised exactly if it addresses a resource, which the normalised path
prints. -/
theorem normalizePath_eq_ok_iff {path result : List Char} : normalizePath path = .ok result ↔
      ∃ names, Addresses path names ∧ result = render names (hasTrailingSlash path) := by
  have hrender : ∀ names, Addresses path names →
      ((if needsTrailingSlash path (join names) = true then .ok (join names ++ ['/'])
        else .ok (join names) : Except String (List Char)) = .ok result ↔
        result = render names (hasTrailingSlash path)) := by
    intro names haddresses
    have hiff := needsTrailingSlash_join (isName_of_addresses haddresses) path
    unfold render
    simp only [hiff]
    split <;> simp [eq_comm]
  unfold normalizePath
  rw [bind_eq_ok_iff]
  refine exists_congr fun names => ?_
  have haddresses : normalizeSegments [] (path.splitOn '/') = .ok names ↔ Addresses path names := by
    simp [normalizeSegments_eq_ok_iff, Addresses, resolves_iff]
  rw [haddresses]
  exact and_congr_right (hrender _)

/-! ## Normalising twice -/

theorem fromUTF8?_asBytes (text : List Char) :
    (String.fromUTF8? ⟨(asBytes text).toArray⟩).map String.toList = some text := by
  have hbytes : (⟨(asBytes text).toArray⟩ : ByteArray) = (String.ofList text).toUTF8 := by
    simp [asBytes, ByteArray.toList, toList_loop]
  have hutf8 : (String.ofList text).toUTF8.IsValidUTF8 := (String.ofList text).isValidUTF8
  rw [hbytes, String.fromUTF8?, dif_pos hutf8]
  exact congrArg some String.toList_ofList

theorem decodes_self {raw : List Char} (h : percent ∉ asBytes raw)
    (hplain : '/' ∉ raw ∧ '\\' ∉ raw) : Decodes raw raw := by
  obtain ⟨hvalid, hsame⟩ := decodeBinary_of_notMem h
  refine ⟨hvalid, ?_, hplain⟩
  rw [decode, hsame]
  exact fromUTF8?_asBytes raw

theorem length_decoded {raws decoded : List (List Char)} (h : List.Forall₂ Decodes raws decoded) :
    (decoded.flatMap asBytes).length + 2 * (raws.flatMap asBytes).count percent =
      (raws.flatMap asBytes).length := by
  induction h with
  | nil => rfl
  | cons hdecodes _ ih =>
    have hfirst := length_decodeBinary hdecodes.1
    simp only [flatMap_cons, length_append, count_append, asBytes_of_decode hdecodes.2.1]
    omega

theorem resolve_sublist (stack segments : List (List Char)) :
    (resolve stack (segments.map toPart)).Sublist (stack ++ segments) := by
  induction segments generalizing stack with
  | nil => simp [resolve]
  | cons segment segments ih =>
    rw [map_cons, toPart]
    split_ifs
    · exact (ih _).trans (by simp)
    · exact (ih _).trans ((dropLast_sublist _).append (sublist_cons_self _ _))
    · simpa [resolve] using ih (stack ++ [segment])

/-- A printed path is its own normal form exactly if none of its names has the byte `%`. -/
theorem normalizePath_render_iff {names : List (List Char)} (hnames : ∀ name ∈ names, IsName name)
    (trailing : Bool) :
    normalizePath (render names trailing) = .ok (render names trailing) ↔
      ∀ name ∈ names, percent ∉ asBytes name := by
  rw [normalizePath_eq_ok_iff]
  constructor
  · rintro ⟨names', haddresses, hrender⟩ name hname hmem
    have hnames' := isName_of_addresses haddresses
    obtain ⟨decoded, hdecoded, hresolves⟩ := haddresses
    -- decoding shortens the names, and the names that are left print the same path
    have hsublist : names'.Sublist decoded := by
      simpa [resolves_iff.1 hresolves] using resolve_sublist [] decoded
    have hle := (hsublist.flatMap asBytes).length_le
    have hlength := length_decoded hdecoded
    have hsame := bytes_render hnames' (hasTrailingSlash (render names trailing))
    rw [← hrender] at hsame
    rw [hsame] at hlength
    have hzero : (names'.flatMap asBytes).count percent = 0 := by omega
    rw [← hsame, bytes_render hnames, count_eq_zero] at hzero
    exact hzero (mem_flatMap.2 ⟨name, hname, hmem⟩)
  · intro hplain
    refine ⟨names, ?_, (render_hasTrailingSlash hnames trailing).symm⟩
    obtain ⟨rest, hrest, hsplit⟩ := splitOn_render hnames trailing
    have hempty : ∀ part ∈ rest, part = [] := by rcases hrest with rfl | rfl <;> simp
    refine ⟨_, forall₂_same.2 fun part hpart => ?_, resolves_iff.2 ?_⟩
    · rw [hsplit, cons_append, mem_cons, mem_append] at hpart
      have hnil : Decodes [] [] := decodes_self (by simp [asBytes_nil]) (by simp)
      rcases hpart with rfl | hpart | hpart
      · exact hnil
      · exact decodes_self (hplain part hpart) (hnames part hpart).2.2.2
      · rwa [hempty part hpart]
    · have hparts : names.map toPart = names.map .name := by
        refine map_congr_left fun name hname => ?_
        obtain ⟨hne, hdot, hdotdot, _⟩ := hnames name hname
        simp [toPart, hne, hdot, hdotdot]
      rw [hsplit]
      rcases hrest with rfl | rfl <;> simp [hparts, resolve_append, resolve_names, resolve, toPart]

/-- Normalising a path a second time changes nothing exactly if no name of the resource it
addresses has the byte `%`. -/
theorem normalizePath_twice_iff (path : List Char) :
    (∀ result, normalizePath path = .ok result → normalizePath result = .ok result) ↔
      ∀ names, Addresses path names → ∀ name ∈ names, percent ∉ asBytes name := by
  constructor
  · intro h names haddresses
    exact (normalizePath_render_iff (isName_of_addresses haddresses) _).1
      (h _ (normalizePath_eq_ok_iff.2 ⟨names, haddresses, rfl⟩))
  · intro h result hresult
    obtain ⟨names, haddresses, rfl⟩ := normalizePath_eq_ok_iff.1 hresult
    exact (normalizePath_render_iff (isName_of_addresses haddresses) _).2 (h _ haddresses)

/-- An escape that is escaped itself is decoded once each time. -/
theorem normalizePath_escaped_escape : normalizePath "/%2541".toList = .ok "/%41".toList ∧
      normalizePath "/%41".toList = .ok "/A".toList := by
  decide +kernel

/-! ## Endpoint patterns -/

/-- One endpoint that requests may go to; no methods means all methods. -/
structure EndpointPattern where
  host : List Char
  pathPrefix : Option (List Char)
  methods : List (List Char)
  deriving DecidableEq

/-- The host ends with the suffix, and a dot stands in front of it. -/
def wildcardSuffixMatches (urlHost suffix : List Char) : Bool :=
  if suffix <:+ urlHost ∧ suffix.length < urlHost.length then
    let front := urlHost.take (urlHost.length - suffix.length)
    front.getLast? == some '.' || front.isEmpty
  else false

namespace EndpointPattern

def hostMatches (pattern : EndpointPattern) (urlHost : List Char) : Bool :=
  pattern.host == urlHost ||
    match pattern.host with
    | '*' :: '.' :: suffix => wildcardSuffixMatches urlHost suffix
    | _ => false

/-- The path prefix, if there is one, stands at the start of the path. -/
def pathMatches (pattern : EndpointPattern) (urlPath : List Char) : Bool :=
  pattern.pathPrefix.all fun front => front.isPrefixOf urlPath

/-- The method is listed, in any case, or no methods are. -/
def methodMatches (toUppercase : List Char → List Char) (pattern : EndpointPattern)
    (method : List Char) : Bool :=
  pattern.methods.isEmpty || pattern.methods.any fun m => toUppercase m == toUppercase method

end EndpointPattern

/-- The pattern matches a URL and a method. -/
def EndpointPattern.matches (toUppercase : List Char → List Char) (pattern : EndpointPattern)
    (urlHost urlPath method : List Char) : Bool :=
  pattern.hostMatches urlHost && pattern.pathMatches urlPath &&
    pattern.methodMatches toUppercase method

/-! ## Validation of URLs -/

/-- The parts of a parsed URL that the validator reads. -/
structure Url where
  scheme : List Char
  username : List Char
  password : Option (List Char)
  hostStr : Option (List Char)
  path : List Char
  deriving DecidableEq

/-- The URL parser, and the case mappings of Unicode. -/
structure Platform where
  parse : List Char → Except String Url
  toLowercase : List Char → List Char
  toUppercase : List Char → List Char

/-- Scheme, host and path in the form in which patterns are compared. -/
structure ParsedUrl where
  scheme : List Char
  host : List Char
  path : List Char

/-- The host without the brackets of an IPv6 address. -/
def stripBrackets (host : List Char) : List Char :=
  match host with
  | '[' :: rest => if rest.getLast? = some ']' then rest.dropLast else host
  | _ => host

def http : List Char := "http".toList

def https : List Char := "https".toList

def parseUrl (platform : Platform) (url : List Char) : Except String ParsedUrl := do
  let parsed ← (platform.parse url).mapError ("URL parse failed: " ++ ·)
  let scheme := platform.toLowercase parsed.scheme
  ensure (scheme = http ∨ scheme = https) ("Unsupported scheme: " ++ String.ofList scheme)
  ensure (parsed.username = [] ∧ parsed.password = none)
    "URL contains userinfo (@) which is not allowed"
  let host ← okOr parsed.hostStr "Empty host"
  let normalizedPath ← normalizePath parsed.path
  pure ⟨scheme, platform.toLowercase (stripBrackets host), normalizedPath⟩

/-- Why a request is denied. -/
inductive DenyReason where
  | invalidUrl (error : String)
  | hostNotAllowed (host : List Char)
  | pathNotAllowed (host path : List Char)
  | methodNotAllowed (method host : List Char)
  | emptyAllowlist
  | insecureScheme (scheme : List Char)
  deriving DecidableEq

inductive AllowlistResult where
  | allowed
  | denied (reason : DenyReason)
  deriving DecidableEq

structure AllowlistValidator where
  patterns : List EndpointPattern
  requireHttps : Bool

namespace AllowlistValidator

/-- Why no pattern matched, for the error message. -/
def noMatchReason (validator : AllowlistValidator) (parsed : ParsedUrl) (method : List Char) :
    DenyReason :=
  let hostMatches := validator.patterns.filter (·.hostMatches parsed.host)
  if hostMatches = [] then .hostNotAllowed parsed.host
  else if hostMatches.filter (·.pathMatches parsed.path) = [] then
    .pathNotAllowed parsed.host parsed.path
  else .methodNotAllowed method parsed.host

def validate (platform : Platform) (validator : AllowlistValidator) (url method : List Char) :
    AllowlistResult :=
  if validator.patterns = [] then .denied .emptyAllowlist
  else
    match parseUrl platform url with
    | .error e => .denied (.invalidUrl e)
    | .ok parsed =>
      if validator.requireHttps = true ∧ parsed.scheme ≠ https then
        .denied (.insecureScheme parsed.scheme)
      else if validator.patterns.any fun pattern =>
          pattern.matches platform.toUppercase parsed.host parsed.path method then .allowed
      else .denied (validator.noMatchReason parsed method)

end AllowlistValidator

/-- A URL is parsed exactly if it is plain HTTP or HTTPS without credentials, and its path
addresses a resource. -/
theorem parseUrl_eq_ok_iff {platform : Platform} {text : List Char} {parsed : ParsedUrl} :
    parseUrl platform text = .ok parsed ↔ ∃ url host names, platform.parse text = .ok url ∧
        (platform.toLowercase url.scheme = http ∨ platform.toLowercase url.scheme = https) ∧
        (url.username = [] ∧ url.password = none) ∧ url.hostStr = some host ∧
        Addresses url.path names ∧
        ⟨platform.toLowercase url.scheme, platform.toLowercase (stripBrackets host),
          render names (hasTrailingSlash url.path)⟩ = parsed := by
  simp only [parseUrl, bind_eq_ok_iff, mapError_eq_ok_iff, ensure_eq_ok_iff, okOr_eq_ok_iff,
    pure_eq_ok_iff, normalizePath_eq_ok_iff, exists_const]
  constructor
  · rintro ⟨url, hparse, hscheme, huser, host, hhost, path, ⟨names, hnames, rfl⟩, hparsed⟩
    exact ⟨url, host, names, hparse, hscheme, huser, hhost, hnames, hparsed⟩
  · rintro ⟨url, host, names, hparse, hscheme, huser, hhost, hnames, hparsed⟩
    exact ⟨url, hparse, hscheme, huser, host, hhost, _, ⟨names, hnames, rfl⟩, hparsed⟩

theorem validate_eq_allowed_iff {platform : Platform} {validator : AllowlistValidator}
    {text method : List Char} :
    validator.validate platform text method = .allowed ↔
      ∃ parsed, parseUrl platform text = .ok parsed ∧
        (validator.requireHttps = true → parsed.scheme = https) ∧
        ∃ pattern ∈ validator.patterns,
          pattern.matches platform.toUppercase parsed.host parsed.path method = true := by
  unfold AllowlistValidator.validate
  by_cases hempty : validator.patterns = []
  · simp [hempty]
  rw [if_neg hempty]
  cases parseUrl platform text with
  | error e => simp
  | ok parsed =>
    dsimp only
    by_cases hinsecure : validator.requireHttps = true ∧ parsed.scheme ≠ https
    · rw [if_pos hinsecure]
      simpa using fun hsecure => absurd (hsecure hinsecure.1) hinsecure.2
    · split <;> simp_all

/-- An allowed request goes to the resource of a plain URL, which a pattern of the allowlist
matches; `Q` is the path of the pattern if its prefix is `Q/`. -/
def Confined (platform : Platform) (validator : AllowlistValidator) (text method : List Char) :
    Prop :=
  ∃ url host names, platform.parse text = .ok url ∧
    (platform.toLowercase url.scheme = https ∨
      validator.requireHttps = false ∧ platform.toLowercase url.scheme = http) ∧
    (url.username = [] ∧ url.password = none) ∧ url.hostStr = some host ∧
    Addresses url.path names ∧
    ∃ pattern ∈ validator.patterns,
      pattern.hostMatches (platform.toLowercase (stripBrackets host)) = true ∧
      pattern.methodMatches platform.toUppercase method = true ∧
      ∀ front, pattern.pathPrefix = some front →
        front <+: render names (hasTrailingSlash url.path) ∧
          ∀ Q, front = Q ++ ['/'] → Q.splitOn '/' <+: [] :: names

/-- The normalised path prints the names that the path addresses, and an allowed request is
confined to the resources under the path of a matching pattern. -/
theorem allowed_request_confined (platform : Platform) (validator : AllowlistValidator) :
    (∀ path result, normalizePath path = .ok result →
      ∃ names, Addresses path names ∧ (∀ name ∈ names, IsName name) ∧
        result = render names (hasTrailingSlash path)) ∧
      ∀ text method, validator.validate platform text method = .allowed →
        Confined platform validator text method := by
  refine ⟨fun path result h => ?_, fun text method h => ?_⟩
  · obtain ⟨names, haddresses, hresult⟩ := normalizePath_eq_ok_iff.1 h
    exact ⟨names, haddresses, isName_of_addresses haddresses, hresult⟩
  · obtain ⟨parsed, hparsed, hsecure, pattern, hpattern, hmatches⟩ := validate_eq_allowed_iff.1 h
    obtain ⟨url, host, names, hparse, hscheme, huser, hhost, haddresses, rfl⟩ :=
      parseUrl_eq_ok_iff.1 hparsed
    simp only [EndpointPattern.matches, Bool.and_eq_true] at hmatches
    obtain ⟨⟨hhostMatches, hpath⟩, hmethod⟩ := hmatches
    refine ⟨url, host, names, hparse, ?_, huser, hhost, haddresses, pattern, hpattern,
      hhostMatches, hmethod, ?_⟩
    · rcases hscheme with hhttp | hhttps
      · refine .inr ⟨Bool.eq_false_iff.2 fun hrequire => ?_, hhttp⟩
        exact absurd (hhttp.symm.trans (hsecure hrequire)) (by decide)
      · exact .inl hhttps
    · intro front hfront
      have hstart : front <+: render names (hasTrailingSlash url.path) := by
        simpa [EndpointPattern.pathMatches, hfront] using hpath
      refine ⟨hstart, ?_⟩
      rintro Q rfl
      obtain ⟨back, hback⟩ := hstart
      rw [append_assoc] at hback
      exact splitOn_render_prefix (isName_of_addresses haddresses) hback

/-- A platform that knows one URL, whose text is in lower case already. -/
def onePagePlatform : Platform where
  parse text :=
    if text = "https://api.example.com/v1/../v1/a%20b/".toList then
      .ok ⟨https, [], none, some "api.example.com".toList, "/v1/../v1/a%20b/".toList⟩
    else .error "relative URL without a base"
  toLowercase text := text
  toUppercase text := text

/-- An allowlist with a wildcard host and a path prefix. -/
def oneEndpoint : AllowlistValidator where
  patterns := [⟨"*.example.com".toList, some "/v1/".toList, ["GET".toList]⟩]
  requireHttps := true

theorem allowed_page_confined :
    oneEndpoint.validate onePagePlatform "https://api.example.com/v1/../v1/a%20b/".toList
        "GET".toList = .allowed ∧
      Confined onePagePlatform oneEndpoint "https://api.example.com/v1/../v1/a%20b/".toList
        "GET".toList := by
  have hallowed : oneEndpoint.validate onePagePlatform
      "https://api.example.com/v1/../v1/a%20b/".toList "GET".toList = .allowed := by
    decide +kernel
  exact ⟨hallowed, (allowed_request_confined onePagePlatform oneEndpoint).2 _ _ hallowed⟩

end Axinite.Net.Allowlist
