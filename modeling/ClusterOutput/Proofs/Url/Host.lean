/-
Hosts stay as they are once they were read: the text of a host that was read is
read as this host (`IsRead.parse_chars`), and has only characters that neither end
an authority nor divide it (`IsRead.chars_shape`).
-/
import ClusterOutput.Proofs.Url.Domain
import ClusterOutput.Proofs.Url.Percent
import ClusterOutput.Url.Host
import Mathlib.Data.List.TakeWhile
import Mathlib.Data.Nat.Digits.Defs

namespace ClusterOutput.Url.Host

/-! ## Digits -/

theorem digitIn?_digitChar {base d : Nat} (hbase : base ≤ 16) (hd : d < base) :
    digitIn? base d.digitChar = some d := by
  have hall : ∀ b ≤ 16, ∀ d < b, digitIn? b d.digitChar = some d := by decide +kernel
  exact hall base hbase d hd

theorem valueIn?_concat (base acc : Nat) (cs : List Char) (c : Char) :
    valueIn? base acc (cs ++ [c]) =
      (valueIn? base acc cs).bind fun v => (digitIn? base c).map (v * base + ·) := by
  induction cs generalizing acc with
  | nil =>
    rw [List.nil_append, valueIn?, valueIn?]
    cases digitIn? base c <;> simp [valueIn?]
  | cons d cs ih =>
    rw [List.cons_append, valueIn?, valueIn?]
    cases digitIn? base d with
    | none => rfl
    | some v => exact ih _

theorem valueIn?_toDigits {base : Nat} (hlow : 1 < base) (hhigh : base ≤ 16) (n : Nat) :
    valueIn? base 0 (Nat.toDigits base n) = some n := by
  induction n using Nat.strongRecOn with
  | ind n ih =>
    rw [Nat.toDigits_eq_if hlow]
    split
    next hn => simp [valueIn?, digitIn?_digitChar hhigh hn]
    next hn =>
      have hmod := digitIn?_digitChar hhigh (Nat.mod_lt n (show 0 < base by omega))
      rw [valueIn?_concat, ih (n / base) (Nat.div_lt_self (by omega) hlow), hmod]
      simp [Nat.mul_comm, Nat.div_add_mod]

/-- The value of digits is below the number that has one digit more. -/
theorem valueIn?_lt {base : Nat} {cs : List Char} {acc n : Nat}
    (h : valueIn? base acc cs = some n) : n < (acc + 1) * base ^ cs.length := by
  induction cs generalizing acc with
  | nil =>
    obtain rfl := Option.some.inj h
    simp
  | cons c cs ih =>
    rw [valueIn?] at h
    split at h
    · cases h
    next d hd =>
      have hdigit : d < base := by
        unfold digitIn? at hd
        simpa using Option.mem_filter_iff.mp hd |>.2
      calc n < (acc * base + d + 1) * base ^ cs.length := ih h
        _ ≤ ((acc + 1) * base) * base ^ cs.length := by
          refine Nat.mul_le_mul_right _ ?_
          rw [Nat.add_mul]
          omega
        _ = (acc + 1) * base ^ (c :: cs).length := by
          rw [List.length_cons, Nat.pow_succ', Nat.mul_assoc]

theorem mem_toDigits {base n : Nat} (hbase : 1 < base) {c : Char} (h : c ∈ Nat.toDigits base n) :
    ∃ d < base, c = d.digitChar := by
  induction n using Nat.strongRecOn with
  | ind n ih =>
    rw [Nat.toDigits_eq_if hbase] at h
    split at h
    next hn => exact ⟨n, hn, List.mem_singleton.mp h⟩
    next hn =>
      rcases List.mem_append.mp h with h | h
      · exact ih _ (Nat.div_lt_self (by omega) hbase) h
      · exact ⟨_, Nat.mod_lt n (by omega), List.mem_singleton.mp h⟩

/-! ## IPv4 -/

/-- The label of a byte. -/
def byteLabel (b : Nat) : List Char := Nat.toDigits 10 b

/-- A byte is written in decimal, which is a label that stays as it is, and read as the byte. -/
theorem byteLabel_read : ∀ b < 256, ipv4Number? (byteLabel b) = some b ∧
    Domain.labelToAscii (byteLabel b) = some (byteLabel b) := by
  decide +kernel

/-- What holds of all decimal digits holds of the characters of a label of a byte. -/
theorem forall_byteLabel {P : Char → Prop} (h : ∀ d < 10, P d.digitChar) (b : Nat) :
    ∀ c ∈ byteLabel b, P c := by
  intro c hc
  obtain ⟨d, hd, rfl⟩ := mem_toDigits (by decide) hc
  exact h d hd

theorem byteLabel_settled {b : Nat} (hb : b < 256) : Domain.IsSettledLabel (byteLabel b) where
  again := (byteLabel_read b hb).2
  ascii := List.all_eq_true.mpr <|
    forall_byteLabel (P := fun c => decide (c.toNat < 0x80) = true) (by decide) b
  folded := forall_byteLabel (by decide +kernel) b
  no_dot hdot := forall_byteLabel (P := (· ≠ '.')) (by decide) b _ hdot rfl

/-- The bytes of an address. -/
def bytesOf (address : Nat) : List Nat :=
  [address / 16777216 % 256, address / 65536 % 256, address / 256 % 256, address % 256]

theorem bytesOf_lt (address : Nat) : ∀ b ∈ bytesOf address, b < 256 := by
  intro b hb
  simp only [bytesOf, List.mem_cons, List.not_mem_nil, or_false] at hb
  omega

theorem ipv4Chars_eq (address : Nat) :
    ipv4Chars address = Domain.joinLabels ((bytesOf address).map byteLabel) := by
  simp [ipv4Chars, byteNumbers, bytesOf, byteLabel, Domain.joinLabels, Nat.shiftLeft_eq]

theorem pieces_ipv4Chars (address : Nat) :
    Text.pieces '.' (ipv4Chars address) = (bytesOf address).map byteLabel := by
  rw [ipv4Chars_eq]
  refine Domain.pieces_joinLabels (List.cons_ne_nil _ _) fun label hlabel => ?_
  obtain ⟨b, hb, rfl⟩ := List.mem_map.mp hlabel
  exact (byteLabel_settled (bytesOf_lt address b hb)).no_dot

/-- An address ends with a label, and so has no empty one to drop. -/
theorem dropLastEmpty_ipv4 (address : Nat) :
    dropLastEmpty ((bytesOf address).map byteLabel) = (bytesOf address).map byteLabel := by
  have hne : byteLabel (address % 256) ≠ [] := Nat.toDigits_ne_nil
  unfold dropLastEmpty bytesOf
  simp only [List.map_cons, List.map_nil, List.reverse_cons, List.reverse_nil, List.nil_append,
    List.cons_append]
  split
  next hnil => exact absurd (List.cons.inj hnil).1 hne
  · rfl

theorem endsInNumber_ipv4 (address : Nat) : endsInNumber (ipv4Chars address) = true := by
  have hread := (byteLabel_read (address % 256) (by omega)).1
  rw [endsInNumber, pieces_ipv4Chars, dropLastEmpty_ipv4]
  simp [bytesOf, hread]

theorem ipv4?_ipv4Chars {address : Nat} (h : address < 4294967296) :
    ipv4? (ipv4Chars address) = some address := by
  have hread : ipv4Numbers? ((bytesOf address).map byteLabel) = some (bytesOf address) := by
    have hbytes := bytesOf_lt address
    generalize bytesOf address = bytes at hbytes
    induction bytes with
    | nil => rfl
    | cons b bytes ih =>
      rw [List.map_cons, ipv4Numbers?, (byteLabel_read b (hbytes b List.mem_cons_self)).1,
        ih fun b hb => hbytes b (List.mem_cons_of_mem _ hb)]
  rw [ipv4?, pieces_ipv4Chars, dropLastEmpty_ipv4, hread]
  simp [ipv4OfNumbers?, bytesOf, byteNumbers]
  omega

theorem ipv4OfNumbers?_lt {numbers : List Nat} {address : Nat}
    (h : ipv4OfNumbers? numbers = some address) : address < 4294967296 := by
  unfold ipv4OfNumbers? at h
  split at h
  · cases h
  next last front _ =>
    simp only at h
    split at h
    · cases h
    next hcheck =>
      obtain rfl := Option.some.inj h
      generalize front.reverse = front at hcheck ⊢
      simp only [Bool.or_eq_true, decide_eq_true_eq, not_or, Nat.not_lt, Nat.not_le] at hcheck
      obtain ⟨⟨hlength, hbytes⟩, hlast⟩ := hcheck
      rcases front with _ | ⟨a, _ | ⟨b, _ | ⟨c, _ | ⟨d, front⟩⟩⟩⟩ <;>
        simp [byteNumbers, Nat.shiftLeft_eq] at hlength hbytes hlast ⊢ <;> omega

/-! ## IPv6 -/

/-- Groups of sixteen bits. -/
def AreGroups (gs : List Nat) : Prop := ∀ g ∈ gs, g < 65536

theorem ipv6Group?_lt {cs : List Char} {g : Nat} (h : ipv6Group? cs = some g) : g < 65536 := by
  unfold ipv6Group? at h
  split at h
  · cases h
  next hlength =>
    have hlt := valueIn?_lt h
    have hpow : 16 ^ cs.length ≤ 16 ^ 4 := by
      refine Nat.pow_le_pow_right (by decide) ?_
      simp only [Bool.or_eq_true, decide_eq_true_eq, not_or, Nat.not_lt] at hlength
      exact hlength.2
    omega

theorem embeddedGroups?_groups {cs : List Char} {gs : List Nat} (h : embeddedGroups? cs = some gs) :
    AreGroups gs := by
  have hbyte {cs : List Char} {b : Nat} (hb : plainByte? cs = some b) : b ≤ 255 := by
    unfold plainByte? at hb
    split at hb
    · obtain rfl := Option.some.inj hb
      decide
    · cases hb
    · cases hb
    · split at hb
      · cases hb
      · simpa using (Option.mem_filter_iff.mp hb).2
  unfold embeddedGroups? at h
  split at h
  next a b c d hpieces =>
    obtain rfl := Option.some.inj h
    have hall : ∀ x, some x ∈ (Text.pieces '.' cs).map plainByte? → x ≤ 255 := fun x hx => by
      obtain ⟨piece, -, hpiece⟩ := List.mem_map.mp hx
      exact hbyte hpiece
    rw [hpieces] at hall
    have ha := hall a (by simp)
    have hb := hall b (by simp)
    have hc := hall c (by simp)
    have hd := hall d (by simp)
    intro g hg
    rcases List.mem_cons.mp hg with rfl | hg
    · omega
    · obtain rfl := List.mem_singleton.mp hg
      omega
  · cases h

theorem groupsOf?_groups {atEnd : Bool} {pieces : List (List Char)} {gs : List Nat}
    (h : groupsOf? atEnd pieces = some gs) : AreGroups gs := by
  induction pieces generalizing gs with
  | nil =>
    obtain rfl := Option.some.inj h
    exact fun _ hg => nomatch hg
  | cons piece pieces ih =>
    cases pieces with
    | nil =>
      rw [groupsOf?] at h
      split at h
      next g hg =>
        obtain rfl := Option.some.inj h
        exact List.forall_mem_singleton.mpr (ipv6Group?_lt hg)
      · split at h
        · exact embeddedGroups?_groups h
        · cases h
    | cons next pieces =>
      rw [groupsOf?] at h
      · split at h
        next g gs hg hgs =>
          obtain rfl := Option.some.inj h
          exact List.forall_mem_cons.mpr ⟨ipv6Group?_lt hg, ih hgs⟩
        · cases h
      · exact List.cons_ne_nil _ _

theorem partGroups?_groups {atEnd : Bool} {cs : List Char} {gs : List Nat}
    (h : partGroups? atEnd cs = some gs) : AreGroups gs := by
  unfold partGroups? at h
  split at h
  · obtain rfl := Option.some.inj h
    exact fun _ hg => nomatch hg
  · exact groupsOf?_groups h

/-- An address that was read has eight groups. -/
theorem ipv6?_groups {cs : List Char} {gs : List Nat} (h : ipv6? cs = some gs) :
    gs.length = 8 ∧ AreGroups gs := by
  unfold ipv6? at h
  split at h
  · split at h
    next parts hparts =>
      split at h
      next hlength =>
        obtain rfl := Option.some.inj h
        exact ⟨hlength, partGroups?_groups hparts⟩
      · cases h
    · cases h
  · split at h
    next l r hl hr =>
      split at h
      next hlength =>
        obtain rfl := Option.some.inj h
        refine ⟨by simp; omega, fun g hg => ?_⟩
        rcases List.mem_append.mp hg with hg | hg
        · rcases List.mem_append.mp hg with hg | hg
          · exact partGroups?_groups hl g hg
          · rw [List.eq_of_mem_replicate hg]
            decide
        · exact partGroups?_groups hr g hg
      · cases h
    · cases h

theorem ipv6Group?_hexDigits {g : Nat} (h : g < 65536) : ipv6Group? (Text.hexDigits g) = some g := by
  have hlength : (Text.hexDigits g).length ≤ 4 :=
    (Nat.length_toDigits_le_iff (by decide) (by decide)).mpr h
  have hne : (Text.hexDigits g).isEmpty = false := by
    rw [List.isEmpty_eq_false_iff]
    exact Nat.toDigits_ne_nil
  rw [ipv6Group?, hne, if_neg (by simpa using hlength)]
  exact valueIn?_toDigits (by decide) (by decide) g

theorem colon_not_mem_hexDigits (g : Nat) : ':' ∉ Text.hexDigits g := by
  intro h
  obtain ⟨d, hd, heq⟩ := mem_toDigits (by decide) h
  have hall : ∀ d < 16, ':' ≠ d.digitChar := by decide
  exact hall d hd heq

theorem groupChars_cons (g next : Nat) (gs : List Nat) :
    groupChars (g :: next :: gs) = Text.hexDigits g ++ ':' :: groupChars (next :: gs) := rfl

theorem pieces_groupChars {gs : List Nat} (hne : gs ≠ []) :
    Text.pieces ':' (groupChars gs) = gs.map Text.hexDigits := by
  induction gs with
  | nil => exact absurd rfl hne
  | cons g gs ih =>
    cases gs with
    | nil => exact Text.pieces_single (colon_not_mem_hexDigits g)
    | cons next gs =>
      rw [groupChars_cons, Text.pieces_append (colon_not_mem_hexDigits g), ih (List.cons_ne_nil _ _)]
      rfl

theorem groupsOf?_hexDigits (atEnd : Bool) {gs : List Nat} (h : AreGroups gs) :
    groupsOf? atEnd (gs.map Text.hexDigits) = some gs := by
  induction gs with
  | nil => rfl
  | cons g gs ih =>
    have hg := ipv6Group?_hexDigits (h g List.mem_cons_self)
    have hgs := ih fun g hg => h g (List.mem_cons_of_mem _ hg)
    cases gs with
    | nil => simp only [List.map_cons, List.map_nil, groupsOf?, hg]
    | cons next gs =>
      simp only [List.map_cons] at hgs ⊢
      rw [groupsOf?, hg, hgs]
      exact List.cons_ne_nil _ _

theorem groupChars_ne_nil (g : Nat) (gs : List Nat) : groupChars (g :: gs) ≠ [] := by
  have hne : Text.hexDigits g ≠ [] := Nat.toDigits_ne_nil
  cases gs with
  | nil => exact hne
  | cons next gs => simp [groupChars_cons]

/-- Groups that are written are read. -/
theorem partGroups?_groupChars (atEnd : Bool) {gs : List Nat} (h : AreGroups gs) :
    partGroups? atEnd (groupChars gs) = some gs := by
  cases gs with
  | nil => rfl
  | cons g gs =>
    rw [partGroups?, List.isEmpty_eq_false_iff.mpr (groupChars_ne_nil g gs),
      pieces_groupChars (List.cons_ne_nil _ _), groupsOf?_hexDigits atEnd h]
    rfl

/-- No double colon begins where the next character is none. -/
theorem splitDoubleColon?_cons {c : Char} {cs : List Char} (h : c = ':' → cs.head? ≠ some ':') :
    splitDoubleColon? (c :: cs) = (splitDoubleColon? cs).map fun p => (c :: p.1, p.2) := by
  rw [splitDoubleColon?]
  rintro rest rfl rfl
  exact h rfl rfl

theorem splitDoubleColon?_append {ds : List Char} (h : ':' ∉ ds) (cs : List Char) :
    splitDoubleColon? (ds ++ cs) = (splitDoubleColon? cs).map fun p => (ds ++ p.1, p.2) := by
  induction ds with
  | nil => simp
  | cons d ds ih =>
    rw [List.mem_cons, not_or] at h
    rw [List.cons_append, splitDoubleColon?_cons fun heq => absurd heq.symm h.1, ih h.2,
      Option.map_map]
    rfl

theorem groupChars_head (g : Nat) (gs : List Nat) (rest : List Char) :
    (groupChars (g :: gs) ++ rest).head? ≠ some ':' := by
  obtain ⟨d, ds, hd⟩ := List.exists_cons_of_ne_nil (Nat.toDigits_ne_nil (b := 16) (n := g))
  have hcolon := colon_not_mem_hexDigits g
  rw [Text.hexDigits, hd, List.mem_cons, not_or] at hcolon
  have hhead : (groupChars (g :: gs)).head? = some d := by
    cases gs with
    | nil => rw [groupChars, Text.hexDigits, hd]; rfl
    | cons next gs => rw [groupChars_cons, Text.hexDigits, hd]; rfl
  rw [List.head?_append, hhead]
  exact fun heq => hcolon.1 (Option.some.inj heq).symm

theorem splitDoubleColon?_groupChars (gs : List Nat) :
    splitDoubleColon? (groupChars gs) = none := by
  induction gs with
  | nil => rfl
  | cons g gs ih =>
    have hcolon := colon_not_mem_hexDigits g
    cases gs with
    | nil =>
      have hsplit := splitDoubleColon?_append hcolon []
      rwa [List.append_nil] at hsplit
    | cons next gs =>
      have hhead := groupChars_head next gs []
      rw [List.append_nil] at hhead
      rw [groupChars_cons, splitDoubleColon?_append hcolon, splitDoubleColon?_cons fun _ => hhead, ih]
      rfl

/-- The first double colon is the one behind the groups. -/
theorem splitDoubleColon?_between (gs : List Nat) (rest : List Char) :
    splitDoubleColon? (groupChars gs ++ ':' :: ':' :: rest) = some (groupChars gs, rest) := by
  have hnow : splitDoubleColon? (':' :: ':' :: rest) = some ([], rest) := rfl
  induction gs with
  | nil => exact hnow
  | cons g gs ih =>
    have hcolon := colon_not_mem_hexDigits g
    cases gs with
    | nil =>
      rw [groupChars, splitDoubleColon?_append hcolon, hnow, Option.map_some, List.append_nil]
    | cons next gs =>
      rw [groupChars_cons, List.append_assoc, List.cons_append, splitDoubleColon?_append hcolon,
        splitDoubleColon?_cons fun _ => groupChars_head next gs _, ih]
      rfl

/-- The longest run of zeros is a run of zeros. -/
theorem longestZeros_run (place : Nat) (gs : List Nat) :
    ∃ before after, gs = before ++ List.replicate (longestZeros place gs).2 0 ++ after ∧
      (longestZeros place gs).1 = place + before.length := by
  induction gs generalizing place with
  | nil => exact ⟨[], [], rfl, rfl⟩
  | cons g gs ih =>
    rw [longestZeros]
    split
    · refine ⟨[], (g :: gs).dropWhile (· == 0), ?_, rfl⟩
      have hzeros : (g :: gs).takeWhile (· == 0) = List.replicate (leadingZeros (g :: gs)) 0 :=
        List.eq_replicate_iff.mpr ⟨rfl, fun x hx => by simpa using List.mem_takeWhile_imp hx⟩
      rw [List.nil_append, ← hzeros, List.takeWhile_append_dropWhile]
    · obtain ⟨before, after, hgs, hplace⟩ := ih (place + 1)
      refine ⟨g :: before, after, ?_, ?_⟩
      · rw [List.cons_append, List.cons_append, ← hgs]
      · rw [hplace, List.length_cons]
        omega

theorem ipv6?_ipv6Chars {gs : List Nat} (hlength : gs.length = 8) (h : AreGroups gs) :
    ipv6? (ipv6Chars gs) = some gs := by
  obtain ⟨before, after, hgs, hplace⟩ := longestZeros_run 0 gs
  rw [Nat.zero_add] at hplace
  unfold ipv6Chars
  generalize hrun : longestZeros 0 gs = run at hgs hplace
  obtain ⟨place, count⟩ := run
  obtain rfl : place = before.length := hplace
  simp only at hgs ⊢
  split
  -- the run is written as a double colon, and read as the groups that are missing to eight
  · have htake : gs.take before.length = before := by
      rw [hgs, List.append_assoc, List.take_left]
    have hdrop : gs.drop (before.length + count) = after := by
      rw [hgs, List.drop_left' (by simp)]
    have hbefore : AreGroups before := fun g hg => h g (by rw [hgs]; simp [hg])
    have hafter : AreGroups after := fun g hg => h g (by rw [hgs]; simp [hg])
    have hcount : before.length + count + after.length = 8 := by
      rw [← hlength]
      simp [hgs, Nat.add_assoc]
    rw [htake, hdrop, ipv6?, splitDoubleColon?_between]
    simp only [partGroups?_groupChars _ hbefore, partGroups?_groupChars _ hafter]
    rw [if_pos (by omega), show 8 - before.length - after.length = count by omega, ← hgs]
  · rw [ipv6?, splitDoubleColon?_groupChars]
    simp only [partGroups?_groupChars _ h, hlength, if_true]

/-! ## All hosts -/

theorem parse_bracketed (inner : List Char) :
    parse ('[' :: inner ++ [']']) =
      match ipv6? inner with
      | some groups => .ok (.ipv6 groups)
      | none => .error .invalidIpv6 := by
  have hreverse : (inner ++ [']']).reverse = ']' :: inner.reverse := by simp
  unfold parse
  cases hgroups : ipv6? inner <;>
    simp only [List.cons_append, hreverse, List.reverse_reverse, hgroups]

/-- What is not in brackets is decoded, and brought into ASCII. -/
theorem parse_unbracketed {text : List Char} (h : ∀ rest, text ≠ '[' :: rest) :
    parse text = match (Utf8.decodeChars? (decodeText text)).bind Domain.toAscii with
      | none => .error .invalidDomain
      | some name =>
        if name.isEmpty then .error .emptyHost
        else if endsInNumber name then
          match ipv4? name with
          | some address => .ok (.ipv4 address)
          | none => .error .invalidIpv4
        else .ok (.domain name) := by
  unfold parse
  split
  next rest => exact absurd rfl (h rest)
  · rfl

/-- A name in ASCII is an address if it ends in a number, else it is the host. -/
theorem parse_name {name : List Char} (h : Domain.toAscii name = some name) :
    parse name = if name.isEmpty then .error .emptyHost
      else if endsInNumber name then
        match ipv4? name with
        | some address => .ok (.ipv4 address)
        | none => .error .invalidIpv4
      else .ok (.domain name) := by
  have hchars := Domain.toAscii_chars h
  have hpercent : '%' ∉ name := fun hmem => nomatch (hchars '%' hmem).2
  have hopen (rest : List Char) : name ≠ '[' :: rest := by
    rintro rfl
    exact nomatch (hchars '[' List.mem_cons_self).2
  rw [parse_unbracketed hopen, decodeText_plain hpercent, Utf8.decodeChars?_encodeChars,
    Option.bind_some, h]

/-- Hosts as they are read. -/
inductive IsRead : Host → Prop
  | domain {name : List Char} (hascii : Domain.toAscii name = some name)
    (hne : name.isEmpty = false) (hnumber : endsInNumber name = false) : IsRead (.domain name)
  | ipv4 {address : Nat} (h : address < 4294967296) : IsRead (.ipv4 address)
  | ipv6 {gs : List Nat} (hlength : gs.length = 8) (h : AreGroups gs) : IsRead (.ipv6 gs)

theorem isRead_of_parse {cs : List Char} {h : Host} (hparse : parse cs = .ok h) : IsRead h := by
  unfold parse at hparse
  split at hparse
  · split at hparse
    · split at hparse
      next groups hgroups =>
        cases hparse
        obtain ⟨hlength, hall⟩ := ipv6?_groups hgroups
        exact .ipv6 hlength hall
      · cases hparse
    · cases hparse
  · split at hparse
    · cases hparse
    next name hname =>
      obtain ⟨decoded, -, hascii⟩ := Option.bind_eq_some_iff.mp hname
      split at hparse
      · cases hparse
      next hne =>
        split at hparse
        · split at hparse
          next address haddress =>
            cases hparse
            obtain ⟨numbers, -, hnumbers⟩ := Option.bind_eq_some_iff.mp haddress
            exact .ipv4 (ipv4OfNumbers?_lt hnumbers)
          · cases hparse
        next hnumber =>
          cases hparse
          exact .domain (Domain.toAscii_again hascii) (Bool.eq_false_iff.mpr hne)
            (Bool.eq_false_iff.mpr hnumber)

theorem toAscii_ipv4Chars (address : Nat) :
    Domain.toAscii (ipv4Chars address) = some (ipv4Chars address) := by
  rw [ipv4Chars_eq]
  refine Domain.toAscii_joinLabels (List.cons_ne_nil _ _) (fun label hlabel => ?_) ?_
  · obtain ⟨b, hb, rfl⟩ := List.mem_map.mp hlabel
    exact byteLabel_settled (bytesOf_lt address b hb)
  · refine List.any_eq_false.mpr (Domain.forall_joinLabels (by decide) fun label hlabel => ?_)
    obtain ⟨b, -, rfl⟩ := List.mem_map.mp hlabel
    exact forall_byteLabel (by decide) b

/-- **The text of a host is read as this host.** -/
theorem IsRead.parse_chars {h : Host} (hread : IsRead h) : parse h.chars = .ok h := by
  cases hread with
  | @domain name hascii hne hnumber =>
    simp only [chars, parse_name hascii, hne, hnumber, Bool.false_eq_true, if_false]
  | @ipv4 address hlt =>
    have hne : (ipv4Chars address).isEmpty = false := by
      rw [ipv4Chars_eq, List.isEmpty_eq_false_iff]
      simp [bytesOf, Domain.joinLabels]
    simp only [chars, parse_name (toAscii_ipv4Chars address), hne, endsInNumber_ipv4,
      ipv4?_ipv4Chars hlt, Bool.false_eq_true, if_false, if_true]
  | @ipv6 gs hlength hall =>
    rw [chars, parse_bracketed, ipv6?_ipv6Chars hlength hall]

/-- A visible ASCII character that divides no URL and no authority, but for colons and brackets. -/
def isHostChar (c : Char) : Bool :=
  0x20 < c.toNat && c.toNat < 0x7f && !"#%/<>?@\\^|".toList.contains c

theorem isHostChar_of_allowed {c : Char} (hascii : c.toNat < 0x80)
    (h : Domain.isForbidden c = false) : isHostChar c = true ∧ c ≠ ':' ∧ c ≠ '[' := by
  exact forall_char (P := fun c => Domain.isForbidden c = false →
    isHostChar c = true ∧ c ≠ ':' ∧ c ≠ '[') (by decide +kernel) hascii h

theorem groupChars_chars (gs : List Nat) :
    ∀ c ∈ groupChars gs, isHostChar c = true ∧ c ≠ '[' ∧ c ≠ ']' := by
  induction gs with
  | nil => exact fun _ hc => nomatch hc
  | cons g gs ih =>
    have hdigits : ∀ c ∈ Text.hexDigits g, isHostChar c = true ∧ c ≠ '[' ∧ c ≠ ']' := by
      intro c hc
      obtain ⟨d, hd, rfl⟩ := mem_toDigits (by decide) hc
      have hall : ∀ d < 16, isHostChar d.digitChar = true ∧ d.digitChar ≠ '[' ∧ d.digitChar ≠ ']' := by
        decide
      exact hall d hd
    cases gs with
    | nil => exact hdigits
    | cons next gs =>
      rw [groupChars_cons]
      intro c hc
      rcases List.mem_append.mp hc with hc | hc
      · exact hdigits c hc
      · exact (List.mem_cons.mp hc).elim (fun heq => heq ▸ (by decide)) (ih c)

theorem ipv6Chars_chars (gs : List Nat) :
    ∀ c ∈ ipv6Chars gs, isHostChar c = true ∧ c ≠ '[' ∧ c ≠ ']' := by
  unfold ipv6Chars
  generalize longestZeros 0 gs = run
  obtain ⟨place, count⟩ := run
  simp only
  split
  · intro c hc
    rcases List.mem_append.mp hc with hc | hc
    · exact groupChars_chars _ c hc
    · rcases List.mem_cons.mp hc with rfl | hc
      · decide
      · exact (List.mem_cons.mp hc).elim (fun heq => heq ▸ (by decide)) (groupChars_chars _ c)
  · exact groupChars_chars gs

/-- The text of a host is a name without colons and brackets, or has brackets around it. -/
theorem IsRead.chars_shape {h : Host} (hread : IsRead h) :
    (h.chars ≠ [] ∧ ∀ c ∈ h.chars, isHostChar c = true ∧ c ≠ ':' ∧ c ≠ '[') ∨
      ∃ inner, h.chars = '[' :: inner ++ [']'] ∧
        ∀ c ∈ inner, isHostChar c = true ∧ c ≠ '[' ∧ c ≠ ']' := by
  cases hread with
  | domain hascii hne hnumber =>
    refine .inl ⟨List.isEmpty_eq_false_iff.mp hne, fun c hc => ?_⟩
    obtain ⟨hlow, hallowed⟩ := Domain.toAscii_chars hascii c hc
    exact isHostChar_of_allowed hlow hallowed
  | @ipv4 address hlt =>
    refine .inl ⟨?_, fun c hc => ?_⟩
    · rw [chars, ipv4Chars_eq]
      simp [bytesOf, Domain.joinLabels]
    · obtain ⟨hlow, hallowed⟩ := Domain.toAscii_chars (toAscii_ipv4Chars address) c hc
      exact isHostChar_of_allowed hlow hallowed
  | ipv6 hlength hall => exact .inr ⟨_, rfl, ipv6Chars_chars _⟩

theorem IsRead.chars_ne_nil {h : Host} (hread : IsRead h) : h.chars ≠ [] := by
  rcases hread.chars_shape with ⟨hne, -⟩ | ⟨inner, hinner, -⟩
  · exact hne
  · simp [hinner]

theorem IsRead.isHostChar {h : Host} (hread : IsRead h) : ∀ c ∈ h.chars, isHostChar c = true := by
  rcases hread.chars_shape with ⟨-, hall⟩ | ⟨inner, hinner, hall⟩
  · exact fun c hc => (hall c hc).1
  · rw [hinner]
    intro c hc
    rcases List.mem_append.mp hc with hc | hc
    · exact (List.mem_cons.mp hc).elim (fun heq => heq ▸ (by decide)) fun hc => (hall c hc).1
    · exact List.mem_singleton.mp hc ▸ (by decide)

end ClusterOutput.Url.Host
