import Mathlib.Data.List.Basic
import Mathlib.Data.List.TakeWhile
import Socks5.Proofs.Ip.Literal

/-!
# The text of an address

The text of an address is read as that address: the dotted decimals of an IPv4 address
(`ipv4?_text`), and the groups of an IPv6 address, whichever of its runs of zeros is left out
(`ipv6?_text`). Main statements: every text stands for its own address (`ofText?_text`), so that
no two addresses have the same text, nor two sockets (`SocketAddr.text_inj`).
-/

namespace Socks5

open Ip.Literal

variable {base n : Nat} {c : Char} {groups front back : List Nat}

/-! ## The digits of bytes and groups -/

namespace Ip.Literal

theorem notMem_toDigits (hc : ¬ IsDigit c) (hlow : 1 < base) (hbase : base ≤ 16) (n : Nat) :
    c ∉ Nat.toDigits base n :=
  fun h => hc (isDigit_of_mem_toDigits hlow hbase h)

/-- What is no digit is in no piece that writes a number. -/
theorem notMem_map_toDigits (hc : ¬ IsDigit c) (hlow : 1 < base) (hbase : base ≤ 16)
    (numbers : List Nat) : ∀ piece ∈ numbers.map (Nat.toDigits base), c ∉ piece := by
  simp only [List.forall_mem_map]
  intro n _
  exact notMem_toDigits hc hlow hbase n

/-- Only zero itself begins with a zero. -/
theorem eq_zero_of_head?_toDigits (h : (Nat.toDigits 10 n).head? = some '0') : n = 0 := by
  induction n using Nat.strong_induction_on with
  | _ n ih =>
    rw [Nat.toDigits_eq_if (by omega)] at h
    split at h
    next hn =>
      have hzero : digitValue? 10 n.digitChar = some 0 := by
        rw [Option.some.inj h]
        rfl
      rw [digitValue?_digitChar hn (by omega)] at hzero
      exact Option.some.inj hzero
    next hn =>
      have hhead : (Nat.toDigits 10 (n / 10)).head? = some '0' := by
        obtain ⟨d, digits, hd⟩ := List.exists_cons_of_ne_nil (Nat.toDigits_ne_nil (n := n / 10))
        rw [hd] at h ⊢
        exact h
      have hzero := ih (n / 10) (by omega) hhead
      omega

theorem byte?_toDigits (b : UInt8) : byte? (Nat.toDigits 10 b.toNat) = some b := by
  have hlt := b.toNat_lt
  have hlength : (Nat.toDigits 10 b.toNat).length ≤ 3 :=
    (Nat.length_toDigits_le_iff (by omega) (by omega)).2 (by omega)
  have hlead : ¬ ((Nat.toDigits 10 b.toNat).head? = some '0' ∧
      1 < (Nat.toDigits 10 b.toNat).length) := by
    rintro ⟨hzero, hlong⟩
    rw [eq_zero_of_head?_toDigits hzero] at hlong
    exact absurd hlong (by decide)
  unfold byte?
  rw [if_neg (by simp [hlength]), if_neg (by simpa using hlead),
    number?_toDigits (by omega) (by omega)]
  simp [hlt]

theorem group?_toDigits (hn : n < 65536) :
    group? (Nat.toDigits 16 n) = some (Octets.ofWord (UInt16.ofNat n)) := by
  have hlength : (Nat.toDigits 16 n).length ≤ 4 :=
    (Nat.length_toDigits_le_iff (by omega) (by omega)).2 (by omega)
  unfold group?
  rw [if_neg (by simp [hlength]), number?_toDigits (by omega) (by omega)]
  rfl

end Ip.Literal

/-! ## IPv4 -/

theorem Ipv4.toList_text (ip : Ipv4) :
    ip.text.toList =
      ['.'].intercalate ((ip.octets.val.map UInt8.toNat).map (Nat.toDigits 10)) := by
  simp [Ipv4.text, String.toList_intercalate, Function.comp_def]

namespace Ip.Literal

theorem ipv4?_text (ip : Ipv4) : ipv4? ip.text.toList = some ip := by
  have hpoint : ∀ piece ∈ (ip.octets.val.map UInt8.toNat).map (Nat.toDigits 10), '.' ∉ piece :=
    notMem_map_toDigits (not_isDigit _ (by simp)) (by omega) (by omega) _
  have hne : (ip.octets.val.map UInt8.toNat).map (Nat.toDigits 10) ≠ [] := by
    intro h
    have hlength := congrArg List.length h
    simp [ip.octets.property] at hlength
  rw [ipv4?_eq_some_iff, Ipv4.toList_text, cutAll_intercalate hpoint hne, List.map_map,
    List.map_map]
  exact List.map_congr_left fun b _ => byte?_toDigits b

end Ip.Literal

/-! ## The groups of an IPv6 address -/

namespace Ipv6

/-- The bytes of groups, two for each. -/
def bytesOf (groups : List Nat) : Bytes :=
  groups.flatMap fun g => (Octets.ofWord (UInt16.ofNat g)).val

theorem bytesOf_append (front back : List Nat) :
    bytesOf (front ++ back) = bytesOf front ++ bytesOf back := List.flatMap_append

theorem length_bytesOf (groups : List Nat) : (bytesOf groups).length = 2 * groups.length := by
  induction groups with
  | nil => rfl
  | cons g groups ih =>
    rw [bytesOf, List.flatMap_cons, List.length_append, (Octets.ofWord _).property]
    rw [bytesOf] at ih
    rw [ih, List.length_cons]
    omega

theorem bytesOf_replicate_zero (count : Nat) :
    bytesOf (List.replicate count 0) = List.replicate (2 * count) 0 := by
  induction count with
  | zero => rfl
  | succ count ih =>
    rw [List.replicate_succ, bytesOf, List.flatMap_cons, ← bytesOf, ih]
    rfl

/-- Bytes are those of the groups that they make. -/
theorem bytesOf_pairs {bytes : Bytes} (heven : 2 ∣ bytes.length) :
    bytesOf (pairs bytes) = bytes := by
  fun_induction pairs bytes with
  | case1 hi lo rest ih =>
    have hword : Octets.ofWord (UInt16.ofNat (hi.toNat * 256 + lo.toNat)) = ⟨[hi, lo], rfl⟩ :=
      Octets.ofWord_word ⟨[hi, lo], rfl⟩
    have hrest : 2 ∣ rest.length := by
      simp only [List.length_cons] at heven
      omega
    rw [bytesOf, List.flatMap_cons, hword, ← bytesOf, ih hrest]
    rfl
  | case2 bytes hshort =>
    match bytes with
    | [] => rfl
    | [_] => simp at heven
    | hi :: lo :: rest => exact absurd rfl (hshort hi lo rest)

theorem lt_of_mem_pairs {bytes : Bytes} {g : Nat} (h : g ∈ pairs bytes) : g < 65536 := by
  fun_induction pairs bytes with
  | case1 hi lo rest ih =>
    have hhi := hi.toNat_lt
    have hlo := lo.toNat_lt
    rcases List.mem_cons.1 h with rfl | h
    · omega
    · exact ih h
  | case2 => simp at h

theorem bytesOf_groups (ip : Ipv6) : bytesOf ip.groups = ip.octets.val :=
  bytesOf_pairs (by rw [ip.octets.property]; omega)

theorem octets_of_mapped? {ip : Ipv6} {inner : Ipv4} (h : ip.mapped? = some inner) :
    ip.octets.val = List.replicate 10 0 ++ [0xFF, 0xFF] ++ inner.octets.val := by
  unfold mapped? at h
  split at h
  next heq =>
    cases h
    rw [heq]
    rfl
  next => cases h

/-- A run of zeros stands between what is before it and what is behind it. -/
theorem eq_append_zeros (groups : List Nat) (start : Nat) :
    groups = groups.take start ++ List.replicate (zerosFrom groups start) 0 ++
      groups.drop (start + zerosFrom groups start) := by
  have hzeros : (groups.drop start).take (zerosFrom groups start) =
      List.replicate (zerosFrom groups start) 0 := by
    rw [zerosFrom, ← List.prefix_iff_eq_take.1 (List.takeWhile_prefix _), List.eq_replicate_iff]
    refine ⟨rfl, fun g hg => ?_⟩
    simpa using List.mem_takeWhile_imp hg
  rw [← hzeros, ← List.drop_drop, List.append_assoc, List.take_append_drop, List.take_append_drop]

theorem toList_joined (groups : List Nat) :
    (joined groups).toList = [':'].intercalate (groups.map (Nat.toDigits 16)) := by
  simp [joined, Text.Hex.ofNat, String.toList_intercalate, Function.comp_def]

end Ipv6

/-! ## Reading groups -/

namespace Ip.Literal

open Ipv6 (bytesOf bytesOf_append bytesOf_replicate_zero length_bytesOf joined toList_joined)

theorem colon_notMem_group (groups : List Nat) :
    ∀ piece ∈ groups.map (Nat.toDigits 16), ':' ∉ piece :=
  notMem_map_toDigits (not_isDigit _ (by simp)) (by omega) (by omega) groups

theorem group_ne_nil (groups : List Nat) :
    ∀ piece ∈ groups.map (Nat.toDigits 16), piece ≠ [] := by
  simp only [List.forall_mem_map]
  intro g _
  exact Nat.toDigits_ne_nil

theorem groups?_toDigits (hlt : ∀ g ∈ groups, g < 65536) :
    groups? (groups.map (Nat.toDigits 16)) = some (bytesOf groups) := by
  rw [groups?_eq_some_iff]
  refine ⟨groups.map fun g => Octets.ofWord (UInt16.ofNat g), ?_, ?_⟩
  · rw [List.map_map, List.map_map]
    exact List.map_congr_left fun g hg => group?_toDigits (hlt g hg)
  · rw [List.flatMap_map]
    rfl

/-- What has no point is no IPv4 address. -/
theorem ipv4?_of_notMem {s : List Char} (h : '.' ∉ s) : ipv4? s = none := by
  by_contra hsome
  obtain ⟨ip, hip⟩ := Option.ne_none_iff_exists'.1 hsome
  rw [ipv4?_eq_some_iff, cutAll_of_notMem h] at hip
  have hlength := congrArg List.length hip
  simp [ip.octets.property] at hlength

/-- The last one of several groups is not taken for an IPv4 address. -/
theorem groupsWithIpv4?_toDigits (hlt : ∀ g ∈ groups, g < 65536) :
    groupsWithIpv4? (groups.map (Nat.toDigits 16)) = some (bytesOf groups) := by
  have hnone : (groups.map (Nat.toDigits 16)).getLast?.bind ipv4? = none := by
    rw [Option.bind_eq_none_iff]
    intro piece hlast
    obtain ⟨g, -, rfl⟩ := List.mem_map.1 (List.mem_of_getLast? hlast)
    exact ipv4?_of_notMem (notMem_toDigits (not_isDigit _ (by simp)) (by omega) (by omega) g)
  rw [groupsWithIpv4?, hnone]
  exact groups?_toDigits hlt

theorem piecesOf_joined (groups : List Nat) :
    piecesOf (joined groups).toList = groups.map (Nat.toDigits 16) := by
  rw [toList_joined]
  cases groups with
  | nil => rfl
  | cons g groups =>
    have hne := List.cons_ne_nil (Nat.toDigits 16 g) (groups.map (Nat.toDigits 16))
    have hcut := cutAll_intercalate (colon_notMem_group (g :: groups)) hne
    obtain ⟨d, digits, hd⟩ := List.exists_cons_of_ne_nil (Nat.toDigits_ne_nil (n := g) (b := 16))
    rw [List.map_cons, hd] at hcut ⊢
    rw [List.intercalate_cons_cons_left] at hcut ⊢
    exact hcut

/-- There is no double colon among groups. -/
theorem cutDouble?_joined_append (groups : List Nat) (s : List Char) :
    cutDouble? ((joined groups).toList ++ s) =
      (cutDouble? s).map fun cut => ((joined groups).toList ++ cut.1, cut.2) := by
  rw [toList_joined]
  exact cutDouble?_intercalate_append (colon_notMem_group groups) (group_ne_nil groups) s

/-- All the groups of an address write it. -/
theorem writes_joined {ip : Ipv6} (hlt : ∀ g ∈ groups, g < 65536)
    (hbytes : bytesOf groups = ip.octets.val) : Writes (joined groups).toList ip := by
  have hcut : cutDouble? (joined groups).toList = none := by
    have hcut := cutDouble?_joined_append groups []
    rwa [List.append_nil] at hcut
  have hne : groups.map (Nat.toDigits 16) ≠ [] := by
    intro h
    have hlength := ip.octets.property
    rw [← hbytes, List.map_eq_nil_iff.1 h] at hlength
    exact absurd hlength (by decide)
  refine .whole hcut ?_
  rw [toList_joined, cutAll_intercalate (colon_notMem_group groups) hne, ← hbytes]
  exact groupsWithIpv4?_toDigits hlt

/-- So do the groups around two or more zeros, with a double colon in place of these. -/
theorem writes_shortened {ip : Ipv6} {run : Nat} (hfront : ∀ g ∈ front, g < 65536)
    (hback : ∀ g ∈ back, g < 65536) (hrun : 1 < run)
    (hbytes : bytesOf (front ++ List.replicate run 0 ++ back) = ip.octets.val) :
    Writes (joined front ++ "::" ++ joined back).toList ip := by
  have hcut : cutDouble? (joined front ++ "::" ++ joined back).toList =
      some ((joined front).toList, (joined back).toList) := by
    rw [String.toList_append, String.toList_append, List.append_assoc, cutDouble?_joined_append]
    simp [cutDouble?]
  have hbefore : groups? (piecesOf (joined front).toList) = some (bytesOf front) := by
    rw [piecesOf_joined]
    exact groups?_toDigits hfront
  have hbehind : groupsWithIpv4? (piecesOf (joined back).toList) = some (bytesOf back) := by
    rw [piecesOf_joined]
    exact groupsWithIpv4?_toDigits hback
  have hlength : 2 * (front.length + run + back.length) = 16 := by
    have hlength := ip.octets.property
    rw [← hbytes, length_bytesOf] at hlength
    simpa [Nat.add_assoc] using hlength
  refine .shortened hcut hbefore hbehind ?_ ?_
  · rw [length_bytesOf, length_bytesOf]
    omega
  · rw [← hbytes, bytesOf_append, bytesOf_append, bytesOf_replicate_zero, length_bytesOf,
      length_bytesOf, show 16 - (2 * front.length + 2 * back.length) = 2 * run by omega]

/-- An address is read from its groups, whichever run of zeros is the longest one. -/
theorem writes_groups (ip : Ipv6) : Writes (Ipv6.shortened ip.groups).toList ip := by
  have hlt : ∀ g ∈ ip.groups, g < 65536 := fun g hg => Ipv6.lt_of_mem_pairs hg
  unfold Ipv6.shortened
  generalize Ipv6.longestZeros ip.groups = start
  dsimp only
  split
  next hrun =>
    refine writes_shortened (fun g hg => hlt g (List.mem_of_mem_take hg))
      (fun g hg => hlt g (List.mem_of_mem_drop hg)) hrun ?_
    rw [← Ipv6.eq_append_zeros, Ipv6.bytesOf_groups]
  next => exact writes_joined hlt ip.bytesOf_groups

/-- An IPv4-mapped address is read from the IPv4 address inside. -/
theorem writes_mapped {ip : Ipv6} {inner : Ipv4} (h : ip.mapped? = some inner) :
    Writes ("::ffff:" ++ inner.text).toList ip := by
  have hcolon : ':' ∉ inner.text.toList := colon_notMem_of_ipv4? (ipv4?_text inner)
  have hpieces : piecesOf ("ffff".toList ++ ':' :: inner.text.toList) =
      ["ffff".toList, inner.text.toList] := by
    have hmark : ∀ piece ∈ ["ffff".toList, inner.text.toList], ':' ∉ piece := by
      simpa using hcolon
    have hcut := cutAll_intercalate hmark (List.cons_ne_nil _ _)
    simpa [piecesOf] using hcut
  have hbehind : groupsWithIpv4? (piecesOf ("ffff".toList ++ ':' :: inner.text.toList)) =
      some ([0xFF, 0xFF] ++ inner.octets.val) := by
    have hgroup : groups? ["ffff".toList] = some [0xFF, 0xFF] := by decide
    have hlast : ["ffff".toList, inner.text.toList].getLast?.bind ipv4? = some inner := by
      rw [List.getLast?_cons_cons, List.getLast?_singleton, Option.bind_some, ipv4?_text]
    rw [hpieces, groupsWithIpv4?, hlast]
    simp only [List.dropLast, hgroup, Option.map_some]
  have hcut : cutDouble? ("::ffff:" ++ inner.text).toList =
      some ([], "ffff".toList ++ ':' :: inner.text.toList) := by
    simp [cutDouble?]
  refine .shortened hcut rfl hbehind ?_ ?_
  · simp [inner.octets.property]
  · simp [Ipv6.octets_of_mapped? h, inner.octets.property]

theorem ipv6?_text (ip : Ipv6) : ipv6? ip.text.toList = some ip := by
  rw [ipv6?_eq_some_iff]
  unfold Ipv6.text
  split
  next inner hinner => exact writes_mapped hinner
  next => exact writes_groups ip

end Ip.Literal

/-! ## Texts of addresses and sockets -/

namespace Ip

/-- The text of an address stands for that address. -/
theorem ofText?_text (ip : Ip) : ofText? ip.text = some ip := by
  cases ip with
  | v4 ip => simp [ofText?, text, ipv4?_text]
  | v6 ip =>
    have hnone : ipv4? ip.text.toList = none := by
      by_contra hsome
      obtain ⟨_, hsome⟩ := Option.ne_none_iff_exists'.1 hsome
      exact colon_notMem_of_ipv4? hsome (colon_mem_of_ipv6? (ipv6?_text ip))
    simp [ofText?, text, hnone, ipv6?_text]

/-- Of two runs of as many zeros the first one is left out. -/
example :
    (Ipv6.mk ⟨[0x20, 0x01, 0, 0, 0, 0, 0, 1, 0, 0, 0, 0, 0, 1, 0, 1], rfl⟩).text =
      "2001::1:0:0:1:1" := by
  decide

theorem text_injective : Function.Injective text := by
  intro a b h
  have hread := ofText?_text a
  rw [h, ofText?_text] at hread
  exact (Option.some.inj hread).symm

/-- No bracket stands in the text of an address. -/
theorem bracket_notMem_text (ip : Ip) (hc : c = '[' ∨ c = ']') : c ∉ ip.text.toList := by
  intro hmem
  have hdigit : ¬ IsDigit c := not_isDigit _ (by rcases hc with rfl | rfl <;> simp)
  cases ip with
  | v4 ip =>
    rcases mem_of_ipv4? (ipv4?_text ip) hmem with rfl | h
    · simp at hc
    · exact hdigit h
  | v6 ip =>
    rcases mem_of_ipv6? (ipv6?_text ip) hmem with rfl | rfl | h
    · simp at hc
    · simp at hc
    · exact hdigit h

end Ip

namespace SocketAddr

variable {a b : Ip} {p q : Port}

theorem toList_text_v4 (ip : Ipv4) (p : Port) :
    ({ ip := .v4 ip, port := p } : SocketAddr).text.toList =
      ip.text.toList ++ ':' :: Nat.toDigits 10 p.toNat := by
  have htext : ({ ip := .v4 ip, port := p } : SocketAddr).text =
      ip.text ++ ":" ++ toString p.toNat := rfl
  simp [htext]

theorem toList_text_v6 (ip : Ipv6) (p : Port) :
    ({ ip := .v6 ip, port := p } : SocketAddr).text.toList =
      '[' :: (ip.text.toList ++ ']' :: ':' :: Nat.toDigits 10 p.toNat) := by
  have htext : ({ ip := .v6 ip, port := p } : SocketAddr).text =
      "[" ++ ip.text ++ "" ++ "]:" ++ toString p.toNat := rfl
  simp [htext]

/-- The text of an IPv4 address does not begin like that of an IPv6 address. -/
theorem text_v4_ne_text_v6 (a : Ipv4) (b : Ipv6) (p q : Port) :
    ({ ip := .v4 a, port := p } : SocketAddr).text ≠
      ({ ip := .v6 b, port := q } : SocketAddr).text := by
  intro h
  have hlists := congrArg String.toList h
  rw [toList_text_v4, toList_text_v6] at hlists
  have hbracket : '[' ∉ a.text.toList := Ip.bracket_notMem_text (.v4 a) (.inl rfl)
  cases htext : a.text.toList with
  | nil => simp [htext] at hlists
  | cons c rest =>
    rw [htext] at hlists hbracket
    have hc : c = '[' := by simpa using (List.cons.inj hlists).1
    exact hbracket (hc ▸ List.mem_cons_self)

theorem port_inj (h : Nat.toDigits 10 p.toNat = Nat.toDigits 10 q.toNat) : p = q := by
  have hread : number? 10 (Nat.toDigits 10 p.toNat) = some p.toNat :=
    number?_toDigits (by omega) (by omega) p.toNat
  rw [h, number?_toDigits (by omega) (by omega)] at hread
  exact UInt16.toNat_inj.1 (Option.some.inj hread).symm

/-- Sockets without a zone have the same text only if they are the same. -/
theorem text_inj :
    ({ ip := a, port := p } : SocketAddr).text = ({ ip := b, port := q } : SocketAddr).text ↔
      a = b ∧ p = q := by
  refine ⟨fun h => ?_, fun h => by rw [h.1, h.2]⟩
  have hdigits : ∀ {c : Char}, ¬ IsDigit c → c ∉ Nat.toDigits 10 p.toNat := fun hc =>
    notMem_toDigits hc (by omega) (by omega) _
  have hlists := congrArg String.toList h
  match a, b with
  | .v4 a, .v4 b =>
    have hcolon : ':' ∉ a.text.toList := colon_notMem_of_ipv4? (ipv4?_text a)
    rw [toList_text_v4, toList_text_v4,
      List.append_cons_inj_of_notMem hcolon (hdigits (not_isDigit _ (by simp)))] at hlists
    obtain ⟨hip, -, hport⟩ := hlists
    exact ⟨Ip.text_injective (String.toList_inj.1 hip), port_inj hport⟩
  | .v6 a, .v6 b =>
    have hbracket : ']' ∉ a.text.toList := Ip.bracket_notMem_text (.v6 a) (.inr rfl)
    have hport : ']' ∉ ':' :: Nat.toDigits 10 p.toNat := by
      simpa using hdigits (not_isDigit ']' (by simp))
    rw [toList_text_v6, toList_text_v6, List.cons_inj_right,
      List.append_cons_inj_of_notMem hbracket hport, List.cons_inj_right] at hlists
    obtain ⟨hip, -, hport⟩ := hlists
    exact ⟨Ip.text_injective (String.toList_inj.1 hip), port_inj hport⟩
  | .v4 a, .v6 b => exact absurd h (text_v4_ne_text_v6 a b p q)
  | .v6 a, .v4 b => exact absurd h.symm (text_v4_ne_text_v6 b a q p)

end SocketAddr

end Socks5
