import Mathlib.Data.List.Induction
import Mathlib.Tactic.IntervalCases
import Socks5.Ip.Literal

/-!
# What is read as an address

What the readers of addresses are made of: a number is read back from its digits
(`number?_toDigits`), and pieces with a mark between them are cut apart again
(`cutAll_intercalate`). Each reader is characterised by its pieces (`ipv4?_eq_some_iff`,
`ipv6?_eq_some_iff`), from which it follows which characters an address has (`mem_of_ipv4?`,
`mem_of_ipv6?`). Main statement: a text that stands for an address strictly stands for the same
one loosely, and for no zone (`ofLooseText?_of_ofText?`).
-/

namespace Socks5.Ip

namespace Literal

variable {base n : Nat} {c mark : Char} {s digits : List Char} {pieces : List (List Char)}
  {bytes : Bytes}

/-! ## Digits -/

/-- A digit of some base. -/
def IsDigit (c : Char) : Prop := ∃ base, (digitValue? base c).isSome

theorem not_isDigit : ∀ c ∈ [':', '.', '%', '[', ']'], ¬ IsDigit c := by
  simp [IsDigit, digitValue?]

theorem digitValue?_digitChar {d : Nat} (hd : d < base) (hbase : base ≤ 16) :
    digitValue? base d.digitChar = some d := by
  have hlt : d < 16 := by omega
  interval_cases d <;> simpa [digitValue?, Nat.digitChar] using hd

theorem number?_concat (digits : List Char) (c : Char) :
    number? base (digits ++ [c]) =
      (number? base digits).bind fun n => (digitValue? base c).map (base * n + ·) := by
  simp [number?, List.foldlM_append]

/-- A number is read back from its digits. -/
theorem number?_toDigits (hlow : 1 < base) (hbase : base ≤ 16) (n : Nat) :
    number? base (Nat.toDigits base n) = some n := by
  induction n using Nat.strong_induction_on with
  | _ n ih =>
    rw [Nat.toDigits_eq_if hlow]
    split
    next hn => simp [number?, digitValue?_digitChar hn hbase]
    next hn =>
      have hdiv : n / base < n := Nat.div_lt_self (by omega) hlow
      have hmod : n % base < base := Nat.mod_lt n (by omega)
      rw [number?_concat, ih _ hdiv, digitValue?_digitChar hmod hbase]
      simp [Nat.div_add_mod]

/-- Only digits are read as a number. -/
theorem isDigit_of_number? (h : number? base digits = some n) (hc : c ∈ digits) : IsDigit c := by
  induction digits using List.reverseRecOn generalizing n with
  | nil => simp at hc
  | append_singleton digits d ih =>
    rw [number?_concat] at h
    obtain ⟨m, hm, hd⟩ := Option.bind_eq_some_iff.1 h
    obtain ⟨v, hv, -⟩ := Option.map_eq_some_iff.1 hd
    rcases List.mem_append.1 hc with hc | hc
    · exact ih hm hc
    · rw [List.mem_singleton.1 hc]
      exact ⟨base, by simp [hv]⟩

theorem isDigit_of_mem_toDigits (hlow : 1 < base) (hbase : base ≤ 16)
    (hc : c ∈ Nat.toDigits base n) : IsDigit c :=
  isDigit_of_number? (number?_toDigits hlow hbase n) hc

theorem isDigit_of_byte? {b : UInt8} (h : byte? digits = some b) (hc : c ∈ digits) :
    IsDigit c := by
  unfold byte? at h
  split at h
  · cases h
  · split at h
    · cases h
    · split at h
      next n hn => exact isDigit_of_number? hn hc
      next => cases h

theorem isDigit_of_group? {g : Octets 2} (h : group? digits = some g) (hc : c ∈ digits) :
    IsDigit c := by
  unfold group? at h
  split at h
  · cases h
  · obtain ⟨n, hn, -⟩ := Option.map_eq_some_iff.1 h
    exact isDigit_of_number? hn hc

/-! ## Pieces -/

theorem cutAll_eq_splitOn (mark : Char) (s : List Char) : cutAll mark s = s.splitOn mark := by
  induction s with
  | nil => rfl
  | cons c rest ih =>
    rw [cutAll, List.splitOn_cons_eq_if_modifyHead, ih]
    by_cases hc : c = mark
    · simp [hc]
    · obtain ⟨piece, pieces, h⟩ := List.exists_cons_of_ne_nil (List.splitOn_ne_nil mark rest)
      simp [hc, h]

/-- Pieces with a mark between them are cut apart again. -/
theorem cutAll_intercalate (hmark : ∀ piece ∈ pieces, mark ∉ piece) (hne : pieces ≠ []) :
    cutAll mark ([mark].intercalate pieces) = pieces := by
  rw [cutAll_eq_splitOn, List.splitOn_intercalate mark hmark hne]

theorem cutAll_of_notMem (h : mark ∉ s) : cutAll mark s = [s] := by
  rw [cutAll_eq_splitOn, List.splitOn_eq_singleton h]

/-- Every character is a mark or in a piece. -/
theorem mem_cutAll (mark : Char) (hc : c ∈ s) : c = mark ∨ ∃ piece ∈ cutAll mark s, c ∈ piece := by
  rw [cutAll_eq_splitOn]
  induction s with
  | nil => simp at hc
  | cons d rest ih =>
    obtain ⟨piece, pieces, h⟩ := List.exists_cons_of_ne_nil (List.splitOn_ne_nil mark rest)
    rw [List.splitOn_cons_eq_if_modifyHead, h, List.modifyHead_cons]
    rw [h] at ih
    by_cases hd : d = mark
    · simp only [hd, beq_self_eq_true, if_true, List.mem_cons, exists_eq_or_imp] at ih hc ⊢
      tauto
    · simp only [hd, beq_iff_eq, if_false, List.mem_cons, exists_eq_or_imp] at ih hc ⊢
      tauto

/-- A text is what stands before its first double colon, the double colon, and the rest. -/
theorem eq_append_of_cutDouble? {front back : List Char} (h : cutDouble? s = some (front, back)) :
    s = front ++ ':' :: ':' :: back := by
  fun_induction cutDouble? s generalizing front back with
  | case1 rest => simp_all
  | case2 c rest _ ih =>
    obtain ⟨⟨front', back'⟩, h', heq⟩ := Option.map_eq_some_iff.1 h
    cases heq
    simp [ih h']
  | case3 => simp at h

/-- A piece without colons stands before a double colon. -/
theorem cutDouble?_append {piece : List Char} (hpiece : ':' ∉ piece) (s : List Char) :
    cutDouble? (piece ++ s) = (cutDouble? s).map fun cut => (piece ++ cut.1, cut.2) := by
  induction piece with
  | nil => simp
  | cons c piece ih =>
    have hc : c ≠ ':' := (List.ne_of_not_mem_cons hpiece).symm
    rw [List.cons_append, cutDouble?, ih (List.not_mem_of_not_mem_cons hpiece)]
    · cases cutDouble? s <;> rfl
    · intro rest h
      exact absurd h hc

/-- So do several pieces that are not empty: there is no double colon among them. -/
theorem cutDouble?_intercalate_append (hcolon : ∀ piece ∈ pieces, ':' ∉ piece)
    (hne : ∀ piece ∈ pieces, piece ≠ []) (s : List Char) :
    cutDouble? ([':'].intercalate pieces ++ s) =
      (cutDouble? s).map fun cut => ([':'].intercalate pieces ++ cut.1, cut.2) := by
  induction pieces with
  | nil => simp
  | cons piece pieces ih =>
    obtain ⟨hpiece, hcolon⟩ := List.forall_mem_cons.1 hcolon
    obtain ⟨-, hne⟩ := List.forall_mem_cons.1 hne
    cases pieces with
    | nil => simpa using cutDouble?_append hpiece s
    | cons next pieces =>
      have hrest := ih hcolon hne
      -- the colon in front of a piece is a single one, since the piece begins with something else
      obtain ⟨c, next, rfl⟩ := List.exists_cons_of_ne_nil (hne _ List.mem_cons_self)
      have hc : c ≠ ':' := fun h => hcolon _ List.mem_cons_self (h ▸ List.mem_cons_self)
      have hsingle : ∀ s, cutDouble? (':' :: c :: s) =
          (cutDouble? (c :: s)).map fun cut => (':' :: cut.1, cut.2) := by
        intro s
        rw [cutDouble?]
        simp [hc]
      rw [List.intercalate_cons_cons, List.append_assoc, List.append_assoc,
        cutDouble?_append hpiece]
      rw [List.intercalate_cons_cons_left] at hrest ⊢
      rw [List.cons_append] at hrest
      simp [hsingle, hrest, Function.comp_def]

/-! ## The readers -/

/-- A list is read item by item. -/
theorem mapM_eq_some_iff {α β : Type} {f : α → Option β} {l : List α} {l' : List β} :
    l.mapM f = some l' ↔ l.map f = l'.map some := by
  induction l generalizing l' with
  | nil => cases l' <;> simp
  | cons a l ih => cases l' <;> simp [Option.bind_eq_some_iff, ih]

/-- An IPv4 address is written by one piece for each byte. -/
theorem ipv4?_eq_some_iff {ip : Ipv4} :
    ipv4? s = some ip ↔ (cutAll '.' s).map byte? = ip.octets.val.map some := by
  constructor
  · intro h
    unfold ipv4? at h
    split at h
    next heq =>
      cases h
      exact heq
    next => cases h
  · intro h
    obtain ⟨⟨octets, hlength⟩⟩ := ip
    match octets, hlength with
    | [a, b, c, d], _ =>
      rw [ipv4?, h]
      rfl

/-- The bytes of groups are written by one piece for every two of them. -/
theorem groups?_eq_some_iff :
    groups? pieces = some bytes ↔
      ∃ gs : List (Octets 2), pieces.map group? = gs.map some ∧ gs.flatMap (·.val) = bytes := by
  simp [groups?, Option.map_eq_some_iff, mapM_eq_some_iff]

theorem length_of_groups? (h : groups? pieces = some bytes) :
    bytes.length = 2 * pieces.length := by
  obtain ⟨gs, hgs, rfl⟩ := groups?_eq_some_iff.1 h
  have hlength : pieces.length = gs.length := by simpa using congrArg List.length hgs
  have htwo : ∀ g : Octets 2, g.val.length = 2 := fun g => g.property
  simp only [List.length_flatMap, htwo, List.map_const', List.sum_replicate_nat, hlength]
  omega

/-- How a text writes an IPv6 address: by all of its groups, or by those around a double colon,
which stands for the zeros that are missing. -/
inductive Writes (s : List Char) (ip : Ipv6) : Prop where
  | whole (cut : cutDouble? s = none)
      (groups : groupsWithIpv4? (cutAll ':' s) = some ip.octets.val) : Writes s ip
  | shortened {front back : List Char} {head tail : Bytes}
      (cut : cutDouble? s = some (front, back)) (before : groups? (piecesOf front) = some head)
      (behind : groupsWithIpv4? (piecesOf back) = some tail)
      (fits : head.length + tail.length ≤ 14)
      (octets : ip.octets.val =
        head ++ List.replicate (16 - (head.length + tail.length)) 0 ++ tail) : Writes s ip

theorem ipv6?_eq_some_iff {ip : Ipv6} : ipv6? s = some ip ↔ Writes s ip := by
  constructor
  · intro h
    unfold ipv6? at h
    split at h
    next hcut =>
      split at h
      next bytes hgroups =>
        split at h <;> cases h
        exact .whole hcut hgroups
      next => cases h
    next front back hcut =>
      split at h
      next head tail hhead htail =>
        split at h <;> cases h
        exact .shortened hcut hhead htail ‹_› rfl
      next => cases h
  · intro h
    obtain ⟨octets, hlength⟩ := ip
    cases h with
    | whole cut groups => simp [ipv6?, cut, groups, hlength]
    | shortened cut before behind fits octets =>
      subst octets
      simp [ipv6?, cut, before, behind, fits]

/-! ## The characters of an address -/

/-- An IPv4 address has digits and points. -/
theorem mem_of_ipv4? {ip : Ipv4} (h : ipv4? s = some ip) (hc : c ∈ s) : c = '.' ∨ IsDigit c := by
  refine (mem_cutAll _ hc).imp_right ?_
  rintro ⟨piece, hpiece, hc⟩
  have hbyte : byte? piece ∈ ip.octets.val.map some :=
    ipv4?_eq_some_iff.1 h ▸ List.mem_map_of_mem hpiece
  obtain ⟨b, -, hb⟩ := List.mem_map.1 hbyte
  exact isDigit_of_byte? hb.symm hc

theorem colon_notMem_of_ipv4? {ip : Ipv4} (h : ipv4? s = some ip) : ':' ∉ s := by
  intro hc
  rcases mem_of_ipv4? h hc with hpoint | hdigit
  · cases hpoint
  · exact not_isDigit _ (by simp) hdigit

theorem isDigit_of_groups? (h : groups? pieces = some bytes) {piece : List Char}
    (hpiece : piece ∈ pieces) (hc : c ∈ piece) : IsDigit c := by
  obtain ⟨gs, hgs, -⟩ := groups?_eq_some_iff.1 h
  have hgroup : group? piece ∈ gs.map some := hgs ▸ List.mem_map_of_mem hpiece
  obtain ⟨g, -, hg⟩ := List.mem_map.1 hgroup
  exact isDigit_of_group? hg.symm hc

theorem mem_of_groupsWithIpv4? (h : groupsWithIpv4? pieces = some bytes) {piece : List Char}
    (hpiece : piece ∈ pieces) (hc : c ∈ piece) : c = '.' ∨ IsDigit c := by
  unfold groupsWithIpv4? at h
  split at h
  next ip hends =>
    obtain ⟨last, hlast, hip⟩ := Option.bind_eq_some_iff.1 hends
    obtain ⟨front, hfront, -⟩ := Option.map_eq_some_iff.1 h
    obtain ⟨others, rfl⟩ := List.getLast?_eq_some_iff.1 hlast
    rw [List.dropLast_concat] at hfront
    rcases List.mem_append.1 hpiece with hpiece | hpiece
    · exact .inr (isDigit_of_groups? hfront hpiece hc)
    · rw [List.mem_singleton.1 hpiece] at hc
      exact mem_of_ipv4? hip hc
  next => exact .inr (isDigit_of_groups? h hpiece hc)

theorem mem_piecesOf (hc : c ∈ s) : c = ':' ∨ ∃ piece ∈ piecesOf s, c ∈ piece := by
  have hs : s.isEmpty = false := by
    cases s with
    | nil => simp at hc
    | cons => rfl
  rw [piecesOf, hs]
  exact mem_cutAll ':' hc

/-- An IPv6 address has digits, colons and points. -/
theorem mem_of_ipv6? {ip : Ipv6} (h : ipv6? s = some ip) (hc : c ∈ s) :
    c = ':' ∨ c = '.' ∨ IsDigit c := by
  cases ipv6?_eq_some_iff.1 h with
  | whole cut groups =>
    refine (mem_cutAll _ hc).imp_right ?_
    rintro ⟨piece, hpiece, hc⟩
    exact mem_of_groupsWithIpv4? groups hpiece hc
  | @shortened front back _ _ cut before behind _ _ =>
    rw [eq_append_of_cutDouble? cut] at hc
    have hside : c = ':' ∨ c ∈ front ∨ c ∈ back := by
      simp only [List.mem_append, List.mem_cons] at hc
      tauto
    rcases hside with hcolon | hfront | hback
    · exact .inl hcolon
    · refine (mem_piecesOf hfront).imp_right ?_
      rintro ⟨piece, hpiece, hc⟩
      exact .inr (isDigit_of_groups? before hpiece hc)
    · refine (mem_piecesOf hback).imp_right ?_
      rintro ⟨piece, hpiece, hc⟩
      exact mem_of_groupsWithIpv4? behind hpiece hc

/-- An IPv6 address has a colon: a single piece makes two bytes or four. -/
theorem colon_mem_of_ipv6? {ip : Ipv6} (h : ipv6? s = some ip) : ':' ∈ s := by
  cases ipv6?_eq_some_iff.1 h with
  | whole cut groups =>
    by_contra hcolon
    rw [cutAll_of_notMem hcolon] at groups
    have hlength := ip.octets.property
    cases hip : ipv4? s with
    | some inner =>
      have hbytes : ip.octets.val = inner.octets.val := by
        simpa [groupsWithIpv4?, groups?, hip, eq_comm] using groups
      rw [hbytes, inner.octets.property] at hlength
      omega
    | none =>
      have hgroups : groups? [s] = some ip.octets.val := by
        simpa [groupsWithIpv4?, hip] using groups
      rw [length_of_groups? hgroups, List.length_singleton] at hlength
      omega
  | shortened cut => simp [eq_append_of_cutDouble? cut]

/-! ## Looser texts -/

theorem colon_notMem_of_anyNumber? (h : anyNumber? s = some n) : ':' ∉ s := by
  have hdigit : ¬ IsDigit ':' := not_isDigit _ (by simp)
  unfold anyNumber? at h
  split at h
  · simp at h
  next x digits =>
    split at h
    next hx =>
      split at h
      · cases h
      · have hdigits : ':' ∉ digits := fun hc => hdigit (isDigit_of_number? h hc)
        simp only [Bool.or_eq_true, decide_eq_true_eq] at hx
        rcases hx with rfl | rfl <;> simpa using hdigits
    next =>
      have hdigits : ':' ∉ x :: digits := fun hc => hdigit (isDigit_of_number? h hc)
      simpa using hdigits
  next => exact fun hc => hdigit (isDigit_of_number? h hc)

/-- Numbers with points between them have no colon. -/
theorem colon_notMem_of_looseIpv4? {ip : Ipv4} (h : looseIpv4? s = some ip) : ':' ∉ s := by
  intro hc
  obtain hcolon | ⟨piece, hpiece, hc⟩ := mem_cutAll '.' hc
  · cases hcolon
  · unfold looseIpv4? at h
    simp only [Option.bind_eq_bind, Option.bind_eq_some_iff, mapM_eq_some_iff] at h
    obtain ⟨numbers, hnumbers, -⟩ := h
    have hnumber : anyNumber? piece ∈ numbers.map some := hnumbers ▸ List.mem_map_of_mem hpiece
    obtain ⟨n, -, hn⟩ := List.mem_map.1 hnumber
    exact colon_notMem_of_anyNumber? hn.symm hc

end Literal

open Literal

/-- A text that stands for an address strictly stands for it loosely: no other reading comes
before. -/
theorem ofLooseText?_of_ofText? {s : String} {ip : Ip} (h : ofText? s = some ip) :
    ofLooseText? s = some (ip, 0) := by
  unfold ofText? at h
  unfold ofLooseText?
  split at h
  next inner hinner =>
    cases h
    simp [hinner]
  next hnone =>
    obtain ⟨inner, hinner, rfl⟩ := Option.map_eq_some_iff.1 h
    have hloose : looseIpv4? s.toList = none := by
      by_contra hsome
      obtain ⟨_, hsome⟩ := Option.ne_none_iff_exists'.1 hsome
      exact colon_notMem_of_looseIpv4? hsome (colon_mem_of_ipv6? hinner)
    have hzone : '%' ∉ s.toList := by
      intro hc
      rcases mem_of_ipv6? hinner hc with h | h | h
      · cases h
      · cases h
      · exact not_isDigit _ (by simp) h
    simp [hnone, hloose, zonedIpv6?, cutAll_of_notMem hzone, hinner]

end Socks5.Ip
