import Mathlib.Data.List.TakeWhile
import ZkRuntime.RpcAuth.Model.Credentials
import ZkRuntime.RpcAuth.Model.Url
/-!
# Principals and their URIs

An escaped segment has no character that `Parse`, `EscapedPath` or `Split`
would take for a separator (`plain_pathEscape`), and unescapes to what it
was made from. So the URI of a principal is taken apart again where it was
put together, and `ParsePrincipal` reads the principal back.
-/

namespace ZkRuntime

namespace RpcAuth

namespace NetUrl

/-! ## Escaping -/

/-- A byte that stands for itself anywhere in a path: no control character, no
separator of a URL, and one `validEncoded` lets through. -/
def plain (c : UInt8) : Bool :=
  !(decide (c.toNat < 0x20) || c == 0x7F || c == 0x23 || c == 0x3F || c == 0x2F) && validEncoded [c]

/-- What a plain byte is not. -/
theorem plain_ne {c : UInt8} (h : plain c = true) :
    0x20 ≤ c.toNat ∧ c ≠ 0x7F ∧ c ≠ 0x23 ∧ c ≠ 0x3F ∧ c ≠ 0x2F := by
  simp only [plain, Bool.and_eq_true, Bool.not_eq_true', Bool.or_eq_false_iff, decide_eq_false_iff_not,
    beq_eq_false_iff_ne, not_lt] at h
  exact ⟨h.1.1.1.1.1, h.1.1.1.1.2, h.1.1.1.2, h.1.1.2, h.1.2⟩

theorem validEncoded_of_plain {l : Bytes} (h : ∀ c ∈ l, plain c = true) : validEncoded l = true := by
  rw [validEncoded, List.all_eq_true]
  intro c hc
  have hone := h c hc
  rw [plain, Bool.and_eq_true, validEncoded, List.all_cons, List.all_nil, Bool.and_true] at hone
  exact hone.2

/-- `distributedzk.local`. -/
def trustDomain : Bytes := ascii "distributedzk.local"

theorem ascii_slash : ascii "/" = [0x2F] := ascii_ofList ['/']

theorem ascii_slashes : ascii "//" = [0x2F, 0x2F] := ascii_ofList ['/', '/']

theorem ascii_star : ascii "*" = [0x2A] := ascii_ofList ['*']

theorem ascii_spiffe : ascii "spiffe" = [0x73, 0x70, 0x69, 0x66, 0x66, 0x65] :=
  ascii_ofList ['s', 'p', 'i', 'f', 'f', 'e']

theorem trustDomain_eq : trustDomain = [0x64, 0x69, 0x73, 0x74, 0x72, 0x69, 0x62, 0x75, 0x74, 0x65, 0x64, 0x7A, 0x6B,
    0x2E, 0x6C, 0x6F, 0x63, 0x61, 0x6C] :=
  ascii_ofList ['d', 'i', 's', 't', 'r', 'i', 'b', 'u', 't', 'e', 'd', 'z', 'k', '.', 'l', 'o', 'c', 'a', 'l']

/-- What every URI starts with, in its parts. -/
theorem ascii_uri : ascii "spiffe://distributedzk.local/" =
    ascii "spiffe" ++ 0x3A :: 0x2F :: 0x2F :: (trustDomain ++ [0x2F]) := by
  rw [ascii_spiffe, trustDomain_eq]
  exact ascii_ofList ['s', 'p', 'i', 'f', 'f', 'e', ':', '/', '/', 'd', 'i', 's', 't', 'r', 'i', 'b', 'u', 't', 'e',
    'd', 'z', 'k', '.', 'l', 'o', 'c', 'a', 'l', '/']

/-- The sets of `shouldEscape`, by their bytes. -/
theorem escape_sets : ascii "-_.~" = [0x2D, 0x5F, 0x2E, 0x7E] ∧
    ascii "$&+,/:;=?@" = [0x24, 0x26, 0x2B, 0x2C, 0x2F, 0x3A, 0x3B, 0x3D, 0x3F, 0x40] ∧
    ascii "/;,?" = [0x2F, 0x3B, 0x2C, 0x3F] :=
  ⟨ascii_ofList ['-', '_', '.', '~'], ascii_ofList ['$', '&', '+', ',', '/', ':', ';', '=', '?', '@'],
    ascii_ofList ['/', ';', ',', '?']⟩

/-- What `validEncoded` lets through besides. -/
theorem valid_sets : ascii "!$&'()*+,;=:@" =
      [0x21, 0x24, 0x26, 0x27, 0x28, 0x29, 0x2A, 0x2B, 0x2C, 0x3B, 0x3D, 0x3A, 0x40] ∧
    ascii "[]" = [0x5B, 0x5D] :=
  ⟨ascii_ofList ['!', '$', '&', '\'', '(', ')', '*', '+', ',', ';', '=', ':', '@'], ascii_ofList ['[', ']']⟩

/-- The marks and the separators that stay in a segment. -/
theorem plain_of_set : (∀ c ∈ ascii "-_.~", shouldEscape .pathSegment c = false → plain c = true) ∧
    ∀ c ∈ ascii "$&+,/:;=?@", shouldEscape .pathSegment c = false → plain c = true := by
  have hall : ((ascii "-_.~" ++ ascii "$&+,/:;=?@").all fun c => shouldEscape .pathSegment c || plain c) = true := by
    simp only [plain, validEncoded, shouldEscape, isIn, escape_sets.1, escape_sets.2.1, escape_sets.2.2, valid_sets.1,
      valid_sets.2]
    decide
  have hone : ∀ c ∈ ascii "-_.~" ++ ascii "$&+,/:;=?@", shouldEscape .pathSegment c = false → plain c = true := by
    intro c hc hesc
    have := List.all_eq_true.1 hall c hc
    rwa [hesc, Bool.false_or] at this
  exact ⟨fun c hc => hone c (List.mem_append_left _ hc), fun c hc => hone c (List.mem_append_right _ hc)⟩

theorem plain_of_alphanumeric {c : UInt8} (h : (isLetter c || Bytes.isDigit c) = true) : plain c = true := by
  have hvalid : validEncoded [c] = true := by
    rw [validEncoded, List.all_cons, List.all_nil, Bool.and_true, shouldEscape, if_pos h]
    simp
  rw [plain, hvalid, Bool.and_true]
  simp only [isLetter, Bytes.isDigit, Bool.or_eq_true, Bool.and_eq_true, decide_eq_true_eq] at h
  simp only [Bool.not_eq_true', Bool.or_eq_false_iff, decide_eq_false_iff_not, beq_eq_false_iff_ne]
  refine ⟨⟨⟨⟨?_, ?_⟩, ?_⟩, ?_⟩, ?_⟩
  · omega
  all_goals
    rintro rfl
    revert h
    decide

/-- A byte that stands for itself in a segment is plain. -/
theorem plain_of_kept {c : UInt8} (h : shouldEscape .pathSegment c = false) : plain c = true := by
  by_cases halpha : (isLetter c || Bytes.isDigit c) = true
  · exact plain_of_alphanumeric halpha
  have hset : isIn "-_.~" c = true ∨ isIn "$&+,/:;=?@" c = true := by
    by_contra hno
    rw [not_or] at hno
    rw [shouldEscape, if_neg halpha, if_neg (by simp), if_neg hno.1, if_neg hno.2] at h
    cases h
  rcases hset with hset | hset
  · exact plain_of_set.1 c (List.contains_iff_mem.1 hset) h
  · exact plain_of_set.2 c (List.contains_iff_mem.1 hset) h

/-- The escape of a byte is plain: a percent sign and two digits. -/
theorem plain_hex : plain 0x25 = true ∧ ∀ n < 16, plain (upperHex n) = true := by
  have hdigit : ∀ n < 16, (isLetter (upperHex n) || Bytes.isDigit (upperHex n)) = true := by decide
  refine ⟨?_, fun n hn => plain_of_alphanumeric (hdigit n hn)⟩
  simp only [plain, validEncoded, shouldEscape, isIn, escape_sets.1, escape_sets.2.1, valid_sets.1, valid_sets.2]
  decide

theorem shouldEscape_percent : shouldEscape .pathSegment 0x25 = true := by
  simp only [shouldEscape, isIn, escape_sets.1, escape_sets.2.1, escape_sets.2.2]
  decide

theorem plain_escapeByte (c : UInt8) : ∀ x ∈ escapeByte .pathSegment c, plain x = true := by
  intro x hx
  rw [escapeByte] at hx
  by_cases hesc : shouldEscape .pathSegment c = true
  · have hlt := c.toNat_lt
    rw [if_pos hesc] at hx
    simp only [List.mem_cons, List.not_mem_nil, or_false] at hx
    rcases hx with rfl | rfl | rfl
    · exact plain_hex.1
    · exact plain_hex.2 _ (by omega)
    · exact plain_hex.2 _ (by omega)
  · rw [if_neg hesc, List.mem_singleton] at hx
    rw [Bool.not_eq_true] at hesc
    rw [hx]
    exact plain_of_kept hesc

/-- **An escaped segment is plain.** -/
theorem plain_pathEscape {s : Bytes} : ∀ x ∈ pathEscape s, plain x = true := by
  intro x hx
  obtain ⟨c, -, hc⟩ := List.mem_flatMap.1 hx
  exact plain_escapeByte c x hc

theorem hexVal_upperHex : ∀ n < 16, Json.hexVal (upperHex n) = some n := by decide

theorem unescape_percent {m : Mode} (hm : m ≠ .host) {x y : ℕ} (hx : x < 16) (hy : y < 16) (rest : Bytes) :
    unescape m (0x25 :: upperHex x :: upperHex y :: rest) =
      (unescape m rest).map ((x * 16 + y).toUInt8 :: ·) := by
  rw [unescape, hexVal_upperHex x hx, hexVal_upperHex y hy]
  dsimp only
  rw [if_pos rfl, if_neg (fun h => hm h.1)]

theorem unescape_cons {m : Mode} (hm : m ≠ .host) {c : UInt8} (hc : c ≠ 0x25) (rest : Bytes) :
    unescape m (c :: rest) = (unescape m rest).map (c :: ·) := by
  rw [unescape.eq_def]
  dsimp only
  rw [if_neg hc, if_neg (fun h => hm h.1)]

/-- A byte is unescaped to itself. -/
theorem unescape_escapeByte {m : Mode} (hm : m ≠ .host) (c : UInt8) (rest : Bytes) :
    unescape m (escapeByte .pathSegment c ++ rest) = (unescape m rest).map (c :: ·) := by
  have hlt := c.toNat_lt
  rw [escapeByte]
  by_cases hesc : shouldEscape .pathSegment c = true
  · rw [if_pos hesc]
    refine (unescape_percent hm (by omega) (by omega) rest).trans ?_
    rw [show c.toNat / 16 * 16 + c.toNat % 16 = c.toNat by omega, Nat.toUInt8, UInt8.ofNat_toNat]
  · rw [if_neg hesc]
    refine unescape_cons hm ?_ rest
    rintro rfl
    exact hesc shouldEscape_percent

/-- **Unescaping is the inverse of escaping.** -/
theorem unescape_pathEscape {m : Mode} (hm : m ≠ .host) (s : Bytes) :
    unescape m (pathEscape s) = some s := by
  induction s with
  | nil => rfl
  | cons c s ih =>
    have hcons : pathEscape (c :: s) = escapeByte .pathSegment c ++ pathEscape s := rfl
    rw [hcons, unescape_escapeByte hm, ih, Option.map_some]

theorem unescape_append {m : Mode} (hm : m ≠ .host) {l : Bytes} (hl : 0x25 ∉ l) (rest : Bytes) :
    unescape m (l ++ rest) = (unescape m rest).map (l ++ ·) := by
  induction l with
  | nil => simp
  | cons c l ih =>
    rw [List.mem_cons, not_or] at hl
    rw [List.cons_append, unescape_cons hm (fun h => hl.1 h.symm), ih hl.2, Option.map_map]
    rfl

/-! ## Parsing -/

/-- A path whose escapes are all valid stays as it is. -/
theorem setPath_of_valid {p path : Bytes} (hne : path ≠ ascii "*") (hp : unescape .path p = some path)
    (hvalid : validEncoded p = true) : setPath p = some p := by
  rw [setPath, hp, Option.map_some, escapedPath]
  by_cases hesc : p = escape .path path
  · rw [if_pos hesc, if_neg (by simp), if_neg hne, ← hesc]
  · rw [if_neg hesc]
    by_cases hnil : p = []
    · -- an empty path is its own escape
      subst hnil
      cases hp
      exact absurd rfl hesc
    · rw [if_pos ⟨hnil, hvalid, hp⟩]

theorem schemeFrom_letters {rawURL passed l : Bytes} (hl : ∀ c ∈ l, isLetter c = true)
    (hne : passed ++ l ≠ []) (rest : Bytes) :
    schemeFrom rawURL passed (l ++ 0x3A :: rest) = some (passed ++ l, rest) := by
  induction l generalizing passed with
  | nil =>
    rw [List.append_nil] at hne ⊢
    have hcolon : ¬ (Bytes.isDigit 0x3A || isIn "+-." 0x3A) = true := by
      have hset : ascii "+-." = [0x2B, 0x2D, 0x2E] := ascii_ofList ['+', '-', '.']
      rw [isIn, hset]
      decide
    rw [List.nil_append, schemeFrom, if_neg (by decide), if_neg hcolon, if_pos rfl, if_neg hne]
  | cons c l ih =>
    rw [List.cons_append, schemeFrom, if_pos (hl c (by simp)), ih (fun x hx => hl x (by simp [hx])) (by simp),
      List.append_assoc]
    rfl

theorem cut_of_notMem {c : UInt8} {s : Bytes} (h : c ∉ s) : cut c s = (s, []) := by
  have hall : ∀ x ∈ s, (x != c) = true := by
    intro x hx
    rw [bne_iff_ne]
    rintro rfl
    exact h hx
  rw [cut, List.takeWhile_eq_self_iff.2 hall, List.dropWhile_eq_nil_iff.2 hall]
  rfl

theorem takeWhile_append_cons {c : UInt8} {l r : Bytes} (h : c ∉ l) :
    (l ++ c :: r).takeWhile (· != c) = l ∧ (l ++ c :: r).dropWhile (· != c) = c :: r := by
  have hall : ∀ x ∈ l, (x != c) = true := by
    intro x hx
    rw [bne_iff_ne]
    rintro rfl
    exact h hx
  rw [List.takeWhile_append_of_pos hall, List.dropWhile_append_of_pos hall]
  simp

variable {ipLiteral : Bytes → Option Bytes}

theorem parseAuthority_trustDomain : parseAuthority ipLiteral trustDomain = some (false, trustDomain) := by
  have hat : lastIndexByte trustDomain 0x40 = none := by
    rw [trustDomain_eq]
    decide
  have hcolon : lastIndexByte trustDomain 0x3A = none := by
    rw [trustDomain_eq]
    decide
  have hun : unescape .host trustDomain = some trustDomain := by
    rw [trustDomain_eq]
    decide +kernel
  have hbracket : trustDomain.head? ≠ some 0x5B := by
    rw [trustDomain_eq]
    decide
  rw [parseAuthority, hat, parseHost, if_neg hbracket, hcolon, hun]
  rfl

/-- A part of a URI: plain bytes and slashes. -/
def Part (l : Bytes) : Prop := ∀ c ∈ l, plain c = true ∨ c = 0x2F

theorem Part.append {l l' : Bytes} (h : Part l) (h' : Part l') : Part (l ++ l') :=
  fun c hc => (List.mem_append.1 hc).elim (h c) (h' c)

theorem Part.notMem {l : Bytes} (h : Part l) {x : UInt8} (hx : x = 0x23 ∨ x = 0x3F) : x ∉ l := by
  intro hmem
  rcases h x hmem with hp | rfl
  · obtain ⟨-, -, h1, h2, -⟩ := plain_ne hp
    exact hx.elim h1 h2
  · rcases hx with hx | hx <;> exact absurd hx (by decide)

theorem Part.noControl {l : Bytes} (h : Part l) :
    (l.any fun b => decide (b.toNat < 0x20) || b == 0x7F) = false := by
  rw [List.any_eq_false]
  intro c hc
  rcases h c hc with hp | rfl
  · obtain ⟨h1, h2, -⟩ := plain_ne hp
    simp [h2]
    omega
  · decide

theorem Part.validEncoded {l : Bytes} (h : Part l) : validEncoded l = true := by
  rw [NetUrl.validEncoded, List.all_eq_true]
  intro c hc
  rcases h c hc with hp | rfl
  · exact List.all_eq_true.1 (validEncoded_of_plain (l := [c]) (by simpa using hp)) c (by simp)
  · simp only [shouldEscape, isIn, escape_sets.1, escape_sets.2.1, valid_sets.1, valid_sets.2]
    decide

theorem all_or {l : Bytes} {p q : UInt8 → Bool} (h : l.all p = true) : (l.all fun c => p c || q c) = true := by
  rw [List.all_eq_true] at h ⊢
  intro c hc
  rw [h c hc, Bool.true_or]

/-- Letters and dots make a part. -/
theorem part_of_letters {l : Bytes} (h : (l.all fun c => isLetter c || c == 0x2E) = true) : Part l := by
  intro c hc
  have hone := List.all_eq_true.1 h c hc
  rw [Bool.or_eq_true, beq_iff_eq] at hone
  rcases hone with hletter | rfl
  · exact .inl (plain_of_alphanumeric (by rw [hletter, Bool.true_or]))
  · refine .inl (plain_of_set.1 _ ?_ ?_)
    · rw [escape_sets.1]
      decide
    · simp only [shouldEscape, isIn, escape_sets.1]
      decide

theorem part_trustDomain : Part trustDomain := by
  refine part_of_letters ?_
  rw [trustDomain_eq]
  decide

theorem part_slash : Part [0x2F] := fun _ hc => .inr (List.mem_singleton.1 hc)

theorem letters_spiffe : (ascii "spiffe").all isLetter = true := by
  rw [ascii_spiffe]
  decide

theorem part_uri : Part (ascii "spiffe://distributedzk.local/") := by
  have hcolon : Part [0x3A] := by
    intro c hc
    rw [List.mem_singleton.1 hc]
    refine .inl (plain_of_set.2 _ ?_ ?_)
    · rw [escape_sets.2.1]
      decide
    · simp only [shouldEscape, isIn, escape_sets.1, escape_sets.2.1, escape_sets.2.2]
      decide
  rw [ascii_uri]
  exact (part_of_letters (all_or letters_spiffe)).append
    (hcolon.append (part_slash.append (part_slash.append (part_trustDomain.append part_slash))))

/-- **A URI of the trust domain is taken apart**: the path stands as it was
written. -/
theorem parse_spiffe {rest path : Bytes} (hrest : Part rest)
    (hpath : unescape .path (0x2F :: rest) = some path) (hstar : path ≠ ascii "*") :
    parse ipLiteral (ascii "spiffe://distributedzk.local/" ++ rest) =
      some ⟨ascii "spiffe", false, trustDomain, [], [], false, [], 0x2F :: rest⟩ := by
  have hraw : ascii "spiffe://distributedzk.local/" ++ rest =
      ascii "spiffe" ++ 0x3A :: (0x2F :: 0x2F :: (trustDomain ++ 0x2F :: rest)) := by
    rw [ascii_uri]
    simp
  have hne : ascii "spiffe" ≠ [] := by
    rw [ascii_spiffe]
    exact List.cons_ne_nil _ _
  have hlower : (ascii "spiffe").map toLower = ascii "spiffe" := by
    rw [ascii_spiffe]
    decide
  have hdomain : Part trustDomain := part_trustDomain
  have hnoSlash : 0x2F ∉ trustDomain := by
    rw [trustDomain_eq]
    decide
  have hfixed : Part (ascii "spiffe://distributedzk.local/") := part_uri
  have hauth : Part (0x2F :: 0x2F :: (trustDomain ++ 0x2F :: rest)) :=
    part_slash.append (part_slash.append (hdomain.append (part_slash.append hrest)))
  have hpart : Part (ascii "spiffe://distributedzk.local/" ++ rest) := hfixed.append hrest
  have hscheme : getScheme (ascii "spiffe" ++ 0x3A :: (0x2F :: 0x2F :: (trustDomain ++ 0x2F :: rest))) =
      some (ascii "spiffe", 0x2F :: 0x2F :: (trustDomain ++ 0x2F :: rest)) :=
    schemeFrom_letters (List.all_eq_true.1 letters_spiffe) hne _
  have hforce : ((0x2F :: 0x2F :: (trustDomain ++ 0x2F :: rest) : Bytes).getLast? == some 0x3F) = false := by
    rw [beq_eq_false_iff_ne]
    exact fun hlast => hauth.notMem (.inr rfl) (List.mem_of_getLast? hlast)
  have hset : setPath (0x2F :: rest) = some (0x2F :: rest) :=
    setPath_of_valid hstar hpath (part_slash.append hrest).validEncoded
  obtain ⟨htake, hdrop⟩ := takeWhile_append_cons (c := 0x2F) (l := trustDomain) (r := rest) hnoSlash
  have hreference : parseReference ipLiteral (ascii "spiffe://distributedzk.local/" ++ rest) =
      some ⟨ascii "spiffe", false, trustDomain, [], [], false, [], 0x2F :: rest⟩ := by
    rw [parseReference, hpart.noControl, if_neg Bool.false_ne_true, if_neg ?_]
    · rw [hraw, hscheme]
      dsimp only
      rw [hforce, Bool.false_and, if_neg Bool.false_ne_true, if_neg Bool.false_ne_true, cut_of_notMem (hauth.notMem (.inr rfl))]
      dsimp only
      rw [List.head?_cons, if_neg (fun h => h rfl), hlower, parseRest,
        if_pos ⟨.inl hne, by rw [ascii_slashes]; rfl⟩]
      dsimp only [List.drop]
      rw [htake, hdrop, parseAuthority_trustDomain]
      dsimp only
      rw [hset]
      rfl
    · intro hraw'
      have := congrArg List.length hraw'
      rw [ascii_uri, ascii_star] at this
      simp only [List.length_append, List.length_cons, List.length_nil] at this
      omega
  rw [parse, cut_of_notMem (hpart.notMem (.inl rfl))]
  dsimp only
  rw [hreference]
  rfl

end NetUrl

open NetUrl

/-! ## Principals -/

/-- **What `ParsePrincipal` accepts is valid, and spelled as its URI.** -/
theorem of_parsePrincipal {lib : Library} {identity : Bytes} {p : Principal}
    (h : parsePrincipal lib identity = some p) : p.valid = true ∧ p.uri lib = identity := by
  unfold parsePrincipal at h
  split at h
  · cases h
  split_ifs at h with hu
  split at h
  · split at h
    · cases h
    split_ifs at h with hid
    split at h
    · cases h
    rename_i role hrole
    dsimp only at h
    split_ifs at h with hp
    cases h
    rw [not_or, Bool.not_eq_false, not_not] at hp
    exact hp
  · cases h

/-- The texts of the roles, by their bytes. -/
theorem role_texts : ascii "coordinator" = [0x63, 0x6F, 0x6F, 0x72, 0x64, 0x69, 0x6E, 0x61, 0x74, 0x6F, 0x72] ∧
    ascii "worker" = [0x77, 0x6F, 0x72, 0x6B, 0x65, 0x72] ∧ ascii "client" = [0x63, 0x6C, 0x69, 0x65, 0x6E, 0x74] :=
  ⟨ascii_ofList ['c', 'o', 'o', 'r', 'd', 'i', 'n', 'a', 't', 'o', 'r'], ascii_ofList ['w', 'o', 'r', 'k', 'e', 'r'],
    ascii_ofList ['c', 'l', 'i', 'e', 'n', 't']⟩

theorem Role.ofText_text (role : Role) : Role.ofText role.text = some role := by
  cases role <;>
    simp only [Role.text, Role.ofText, role_texts.1, role_texts.2.1, role_texts.2.2] <;>
    decide

theorem letters_text (role : Role) : role.text.all isLetter = true := by
  cases role <;>
    simp only [Role.text, role_texts.1, role_texts.2.1, role_texts.2.2] <;>
    decide

theorem part_text (role : Role) : Part role.text :=
  part_of_letters (all_or (letters_text role))

theorem text_notMem (role : Role) : 0x25 ∉ role.text ∧ 0x2F ∉ role.text := by
  have hletter := List.all_eq_true.1 (letters_text role)
  exact ⟨fun h => absurd (hletter _ h) (by decide), fun h => absurd (hletter _ h) (by decide)⟩

/-- The path of a principal falls into its two parts. -/
theorem splitOn_path {role escaped : Bytes} (hrole : 0x2F ∉ role) (hescaped : 0x2F ∉ escaped) :
    (0x2F :: (role ++ 0x2F :: escaped) : Bytes).splitOn 0x2F = [[], role, escaped] := by
  have hfirst := List.splitOn_append_cons_self_of_not_mem (by simp : (0x2F : UInt8) ∉ ([] : Bytes))
    (role ++ 0x2F :: escaped)
  rw [List.nil_append] at hfirst
  rw [hfirst, List.splitOn_append_cons_self_of_not_mem hrole, List.splitOn_eq_singleton hescaped]

section

variable (ipLiteral : Bytes → Option Bytes) (unmarshalNames : Bytes → Option (List RawValue × Bytes))
variable (parseAddr : Bytes → Option Addr)

/-- **A valid principal is read back from its URI.** -/
theorem parsePrincipal_uri {p : Principal} (hp : p.valid = true) :
    parsePrincipal (netUrl ipLiteral unmarshalNames parseAddr)
      (p.uri (netUrl ipLiteral unmarshalNames parseAddr)) = some p := by
  have hid : ¬ (p.id = [] ∨ Utf8.validString p.id = false) := by
    intro hbad
    rw [Principal.valid, if_pos hbad] at hp
    cases hp
  have hplain : ∀ c ∈ pathEscape p.id, plain c = true := plain_pathEscape
  have hrest : Part (p.role.text ++ 0x2F :: pathEscape p.id) := by
    refine (part_text p.role).append fun c hc => ?_
    rcases List.mem_cons.1 hc with rfl | hc
    · exact .inr rfl
    · exact .inl (hplain c hc)
  have huri : p.uri (netUrl ipLiteral unmarshalNames parseAddr) =
      ascii "spiffe://distributedzk.local/" ++ (p.role.text ++ 0x2F :: pathEscape p.id) := by
    rw [Principal.uri, ascii_slash, List.append_assoc, List.append_assoc]
    rfl
  have hpath : unescape .path (0x2F :: (p.role.text ++ 0x2F :: pathEscape p.id)) =
      some (0x2F :: (p.role.text ++ 0x2F :: p.id)) := by
    rw [unescape_cons (by decide) (by decide), unescape_append (by decide) (text_notMem p.role).1,
      unescape_cons (by decide) (by decide), unescape_pathEscape (by decide)]
    rfl
  have hstar : (0x2F :: (p.role.text ++ 0x2F :: p.id) : Bytes) ≠ ascii "*" := by
    rw [ascii_star]
    exact fun h => absurd (List.head_eq_of_cons_eq h) (by decide)
  have hparse : (netUrl ipLiteral unmarshalNames parseAddr).urlParse
      (ascii "spiffe://distributedzk.local/" ++ (p.role.text ++ 0x2F :: pathEscape p.id)) =
      some ⟨ascii "spiffe", false, trustDomain, [], [], false, [], 0x2F :: (p.role.text ++ 0x2F :: pathEscape p.id)⟩ :=
    parse_spiffe hrest hpath hstar
  have hhash : 0x23 ∉ ascii "spiffe://distributedzk.local/" ++ (p.role.text ++ 0x2F :: pathEscape p.id) := by
    rw [List.mem_append, not_or]
    exact ⟨part_uri.notMem (.inl rfl), hrest.notMem (.inl rfl)⟩
  have hsplit := splitOn_path (text_notMem p.role).2
    (fun hmem => (plain_ne (hplain _ hmem)).2.2.2.2 rfl : (0x2F : UInt8) ∉ pathEscape p.id)
  have hunescape : (netUrl ipLiteral unmarshalNames parseAddr).pathUnescape (pathEscape p.id) = some p.id :=
    unescape_pathEscape (by decide) p.id
  unfold parsePrincipal
  rw [huri, hparse]
  dsimp only
  rw [if_neg (by simp [trustDomain, hhash]), hsplit]
  dsimp only
  rw [hunescape]
  dsimp only
  rw [if_neg hid, Role.ofText_text]
  dsimp only
  rw [if_neg (by rw [not_or, Bool.not_eq_false, not_not]; exact ⟨hp, huri⟩)]

/-- **Distinct principals have distinct URIs.** -/
theorem uri_inj {p q : Principal} (hp : p.valid = true) (hq : q.valid = true)
    (h : p.uri (netUrl ipLiteral unmarshalNames parseAddr) =
      q.uri (netUrl ipLiteral unmarshalNames parseAddr)) : p = q := by
  have hread := parsePrincipal_uri ipLiteral unmarshalNames parseAddr hp
  rw [h, parsePrincipal_uri ipLiteral unmarshalNames parseAddr hq] at hread
  exact (Option.some_inj.1 hread).symm

end

end RpcAuth

end ZkRuntime
