/-
Authorities can be read again: the text of an authority that was read holds the same
host (`IsSound.reads`), whatever stood in the text that it was read from.
-/
import ClusterOutput.Proofs.Url.Extension
import ClusterOutput.Proofs.Url.Host

namespace ClusterOutput.Url

/-! ## Ports -/

theorem parsePort_value_append (acc : Nat) (cs cs' : List Char) :
    parsePort.value acc (cs ++ cs') = (parsePort.value acc cs).bind (parsePort.value · cs') := by
  induction cs generalizing acc with
  | nil => rfl
  | cons c cs ih =>
    rw [List.cons_append, parsePort.value, parsePort.value]
    cases Text.digit? c with
    | none => rfl
    | some d =>
      simp only
      split
      · exact ih _
      · rfl

theorem digit?_digitChar : ∀ d < 10, Text.digit? d.digitChar = some d := by decide

theorem parsePort_value_digits {port : Nat} (h : port < 65536) :
    parsePort.value 0 (Text.digits port) = .ok port := by
  unfold Text.digits
  induction port using Nat.strongRecOn with
  | ind port ih =>
    rw [Nat.toDigits_eq_if (by decide)]
    split
    next hlow =>
      simp [parsePort.value, digit?_digitChar port hlow, h]
    next hlow =>
      have hmod := digit?_digitChar (port % 10) (Nat.mod_lt _ (by decide))
      have hport : port / 10 * 10 + port % 10 = port := by omega
      rw [parsePort_value_append, ih (port / 10) (by omega) (by omega), Except.bind,
        parsePort.value, hmod]
      simp [hport, h, parsePort.value]

theorem parsePort_value_lt {acc : Nat} (hacc : acc < 65536) {cs : List Char} {port : Nat}
    (h : parsePort.value acc cs = .ok port) : port < 65536 := by
  induction cs generalizing acc with
  | nil =>
    cases h
    exact hacc
  | cons c cs ih =>
    rw [parsePort.value] at h
    split at h
    · cases h
    · split at h
      next hlt => exact ih hlt h
      · cases h

theorem parsePort_lt {scheme cs : List Char} {port : Nat} (h : parsePort scheme cs = .ok (some port)) :
    port < 65536 := by
  unfold parsePort at h
  split at h
  · cases h
  · split at h
    · cases h
    next value hvalue =>
      have hlt := parsePort_value_lt (by decide) hvalue
      split at h <;> cases h
      exact hlt

theorem parsePort_digits (scheme : List Char) {port : Nat} (h : port < 65536) :
    ∃ port', parsePort scheme (Text.digits port) = .ok port' := by
  have hne : Text.digits port ≠ [] := Nat.toDigits_ne_nil
  unfold parsePort
  split
  · exact ⟨_, rfl⟩
  · rw [parsePort_value_digits h]
    exact ⟨_, rfl⟩

/-! ## Taking an authority apart -/

theorem splitUserinfo?_none {cs : List Char} (h : '@' ∉ cs) : splitUserinfo? cs = none := by
  have hdrop : cs.reverse.dropWhile (· != '@') = [] :=
    List.dropWhile_eq_nil_iff.mpr fun c hc => by
      simpa using fun heq : c = '@' => h (heq ▸ List.mem_reverse.mp hc)
  rw [splitUserinfo?, hdrop]

theorem splitUserinfo?_some (front : List Char) {back : List Char} (h : '@' ∉ back) :
    splitUserinfo? (front ++ '@' :: back) = some (front, back) := by
  have hdrop : (front ++ '@' :: back).reverse.dropWhile (· != '@') = '@' :: front.reverse := by
    rw [List.reverse_append, List.reverse_cons, List.append_assoc,
      List.dropWhile_append_of_pos fun c hc => by
        simpa using fun heq : c = '@' => h (heq ▸ List.mem_reverse.mp hc)]
    rfl
  rw [splitUserinfo?, hdrop]
  simp

theorem splitPort_name {name : List Char} (h : ∀ c ∈ name, c ≠ ':' ∧ c ≠ '[') (tail : List Char) :
    splitPort false (name ++ tail) =
      (name ++ (splitPort false tail).1, (splitPort false tail).2) := by
  induction name with
  | nil => rfl
  | cons c name ih =>
    obtain ⟨hcolon, hbracket⟩ := h c List.mem_cons_self
    rw [List.cons_append, splitPort, if_neg (by simp [hcolon])]
    simp only [hbracket, if_false, ite_self, ih fun d hd => h d (List.mem_cons_of_mem _ hd)]
    rfl

theorem splitPort_inner {inner : List Char} (h : ∀ c ∈ inner, c ≠ '[' ∧ c ≠ ']') (tail : List Char) :
    splitPort true (inner ++ ']' :: tail) =
      (inner ++ ']' :: (splitPort false tail).1, (splitPort false tail).2) := by
  induction inner with
  | nil => simp [splitPort]
  | cons c inner ih =>
    obtain ⟨hopen, hclose⟩ := h c List.mem_cons_self
    rw [List.cons_append, splitPort, if_neg (by simp)]
    simp only [hopen, hclose, if_false, ih fun d hd => h d (List.mem_cons_of_mem _ hd)]
    rfl

/-- A port stands behind the text of a host. -/
theorem splitPort_host {h : Host} (hread : h.IsRead) (tail : List Char) :
    splitPort false (h.chars ++ tail) =
      (h.chars ++ (splitPort false tail).1, (splitPort false tail).2) := by
  rcases hread.chars_shape with ⟨-, hall⟩ | ⟨inner, hinner, hall⟩
  · exact splitPort_name (fun c hc => (hall c hc).2) tail
  · have hbrackets (more : List Char) : '[' :: inner ++ [']'] ++ more = '[' :: (inner ++ ']' :: more) := by
      simp
    rw [hinner, hbrackets, hbrackets, splitPort, if_neg (by simp)]
    simp only [if_true, splitPort_inner (fun c hc => (hall c hc).2) tail]

/-! ## Authorities -/

/-- A visible ASCII character that stands in user names as it is. -/
def isUserinfoChar (c : Char) : Bool :=
  0x20 < c.toNat && c.toNat < 0x7f && !inUserinfo c.toNat.toUInt8

theorem userinfo_chars (cs : List Char) : ∀ c ∈ encodeText inUserinfo cs, isUserinfoChar c = true := by
  have hkept : ∀ b : UInt8, isControlByte b = false → inUserinfo b = false →
      isUserinfoChar (Char.ofNat b.toNat) = true :=
    forall_byte (by decide +kernel)
  exact forall_encodeText (fun b _ => hkept b) (by decide) (by decide)

/-- A visible ASCII character within an authority of a special scheme. -/
def isAuthorityChar (c : Char) : Bool :=
  0x20 < c.toNat && c.toNat < 0x7f && !endsAuthority .special c

/-- Authorities as they are read with special schemes. -/
structure Authority.IsSound (a : Authority) : Prop where
  username : ∀ c ∈ a.username, isUserinfoChar c = true
  password : ∀ p, a.password = some p → ∀ c ∈ p, isUserinfoChar c = true
  host : ∃ h, a.host = some h ∧ h.IsRead
  port : ∀ p, a.port = some p → p < 65536

theorem parseHost_special {cs : List Char} {host : Option Host}
    (h : parseHost .special cs = .ok host) : ∃ v, host = some v ∧ v.IsRead := by
  have hread : parseHost .special cs = if cs.isEmpty then .error .emptyHost else
      (Host.parse cs).bind fun v => .ok (some v) := by
    unfold parseHost
    split
    · rfl
    · cases Host.parse cs <;> rfl
  rw [hread] at h
  split at h
  · cases h
  · cases hv : Host.parse cs with
    | error fault => rw [hv] at h; cases h
    | ok v =>
      rw [hv] at h
      cases h
      exact ⟨v, rfl, Host.isRead_of_parse hv⟩

/-- The port of the text behind a host, if there is any. -/
def portOf (scheme : List Char) : Option (List Char) → Except Fault (Option Nat)
  | some cs => parsePort scheme cs
  | none => .ok none

/-- An authority of a special scheme, whose userinfo was told from its host and port. -/
theorem parseAuthority_special {scheme cs hostport : List Char} {userinfo : Option (List Char)}
    (hkind : kindOf scheme = .special) (isLast : Bool)
    (hsplit : splitUserinfo? cs = userinfo.map (·, hostport))
    (hnone : userinfo = none → hostport = cs) :
    parseAuthority scheme cs isLast =
      (parseHost .special (splitPort false hostport).1).bind fun host =>
        (portOf scheme (splitPort false hostport).2).bind fun port =>
          .ok ⟨(parseUserinfo (userinfo.getD [])).1, (parseUserinfo (userinfo.getD [])).2, host,
            port⟩ := by
  have hempty : hostport = [] →
      parseHost .special (splitPort false hostport).1 = .error .emptyHost := by
    rintro rfl
    rfl
  cases userinfo with
  | none =>
    obtain rfl := hnone rfl
    simp only [parseAuthority, hkind, hsplit, Option.map_none]
    cases hhost : parseHost .special (splitPort false hostport).1 with
    | error fault => rfl
    | ok host =>
      obtain ⟨v, rfl, -⟩ := parseHost_special hhost
      cases (splitPort false hostport).2 <;> rfl
  | some front =>
    simp only [parseAuthority, hkind, hsplit, Option.map_some]
    split
    next hcheck =>
      simp only [Bool.and_eq_true, List.isEmpty_iff] at hcheck
      rw [hempty hcheck.1.2]
      rfl
    · cases hhost : parseHost .special (splitPort false hostport).1 with
      | error fault => rfl
      | ok host =>
        obtain ⟨v, rfl, -⟩ := parseHost_special hhost
        cases (splitPort false hostport).2 <;> rfl

theorem Authority.isSound_of_parse {scheme cs : List Char} {isLast : Bool} {a : Authority}
    (hkind : kindOf scheme = .special) (h : parseAuthority scheme cs isLast = .ok a) : a.IsSound := by
  obtain ⟨userinfo, hostport, hsplit, hnone⟩ : ∃ userinfo hostport,
      splitUserinfo? cs = Option.map (·, hostport) userinfo ∧ (userinfo = none → hostport = cs) := by
    cases hparts : splitUserinfo? cs with
    | none => exact ⟨none, cs, rfl, fun _ => rfl⟩
    | some parts => exact ⟨some parts.1, parts.2, rfl, fun hnone => nomatch hnone⟩
  rw [parseAuthority_special hkind isLast hsplit hnone] at h
  cases hhost : parseHost .special (splitPort false hostport).1 with
  | error fault => rw [hhost] at h; cases h
  | ok host =>
    cases hport : portOf scheme (splitPort false hostport).2 with
    | error fault => rw [hhost, Except.bind, hport] at h; cases h
    | ok port =>
      rw [hhost, Except.bind, hport] at h
      cases h
      refine ⟨userinfo_chars _, fun p hp => ?_, parseHost_special hhost, fun p hp => ?_⟩
      · simp only [parseUserinfo] at hp
        split at hp
        · cases hp
        · cases hp
          exact userinfo_chars _
      · obtain rfl : port = some p := hp
        unfold portOf at hport
        split at hport
        · exact parsePort_lt hport
        · cases hport

theorem isAuthorityChar_host {c : Char} (h : Host.isHostChar c = true) :
    isAuthorityChar c = true ∧ c ≠ '@' := by
  have hlt : c.toNat < 0x7f := by
    simp only [Host.isHostChar, Bool.and_eq_true, decide_eq_true_eq] at h
    exact h.1.2
  exact forall_char (P := fun c => Host.isHostChar c = true → isAuthorityChar c = true ∧ c ≠ '@')
    (by decide +kernel) hlt h

theorem isAuthorityChar_userinfo {c : Char} (h : isUserinfoChar c = true) :
    isAuthorityChar c = true := by
  have hlt : c.toNat < 0x7f := by
    simp only [isUserinfoChar, Bool.and_eq_true, decide_eq_true_eq] at h
    exact h.1.2
  exact forall_char (P := fun c => isUserinfoChar c = true → isAuthorityChar c = true)
    (by decide +kernel) hlt h

theorem digits_chars (n : Nat) : ∀ c ∈ Text.digits n, isAuthorityChar c = true ∧ c ≠ '@' := by
  intro c hc
  obtain ⟨d, hd, rfl⟩ := Host.mem_toDigits (by decide) hc
  have hall : ∀ d < 10, isAuthorityChar d.digitChar = true ∧ d.digitChar ≠ '@' := by decide
  exact hall d hd

namespace Authority

variable {a : Authority}

theorem IsSound.hostChars (h : a.IsSound) :
    ∀ c ∈ a.hostChars, isAuthorityChar c = true ∧ c ≠ '@' := by
  obtain ⟨v, hv, hread⟩ := h.host
  intro c hc
  rw [Authority.hostChars, hv] at hc
  rcases List.mem_append.mp hc with hc | hc
  · exact isAuthorityChar_host (hread.isHostChar c hc)
  · split at hc
    · exact (List.mem_cons.mp hc).elim (fun heq => heq ▸ (by decide)) (digits_chars _ c)
    · exact nomatch hc

theorem IsSound.userinfoChars (h : a.IsSound) : ∀ c ∈ a.userinfoChars, isAuthorityChar c = true := by
  intro c hc
  unfold Authority.userinfoChars at hc
  split at hc
  · exact nomatch hc
  · rcases List.mem_append.mp hc with hc | hc
    · rcases List.mem_append.mp hc with hc | hc
      · exact isAuthorityChar_userinfo (h.username c hc)
      · split at hc
        next p hp =>
          exact (List.mem_cons.mp hc).elim (fun heq => heq ▸ (by decide)) fun hc =>
            isAuthorityChar_userinfo (h.password p hp c hc)
        · exact nomatch hc
    · exact List.mem_singleton.mp hc ▸ (by decide)

theorem IsSound.chars (h : a.IsSound) : ∀ c ∈ a.chars, isAuthorityChar c = true := by
  intro c hc
  rcases List.mem_append.mp hc with hc | hc
  · exact h.userinfoChars c hc
  · exact (h.hostChars c hc).1

theorem IsSound.hostChars_ne_nil (h : a.IsSound) : a.hostChars ≠ [] := by
  obtain ⟨v, hv, hread⟩ := h.host
  rw [Authority.hostChars, hv]
  exact List.append_ne_nil_of_left_ne_nil hread.chars_ne_nil _

/-- User name and password end at the at sign before the host. -/
theorem splitUserinfo?_chars (h : a.IsSound) :
    ∃ userinfo, splitUserinfo? a.chars = Option.map (·, a.hostChars) userinfo ∧
      (userinfo = none → a.hostChars = a.chars) := by
  have hat : '@' ∉ a.hostChars := fun hmem => (h.hostChars _ hmem).2 rfl
  rw [Authority.chars, Authority.userinfoChars]
  split
  · exact ⟨none, splitUserinfo?_none hat, fun _ => rfl⟩
  · rw [List.append_assoc, List.singleton_append]
    exact ⟨some _, splitUserinfo?_some _ hat, fun hnone => nomatch hnone⟩

/-- **The text of an authority is read as an authority with the same host.** -/
theorem IsSound.reads (h : a.IsSound) {scheme : List Char} (hkind : kindOf scheme = .special)
    (isLast : Bool) : ∃ a', parseAuthority scheme a.chars isLast = .ok a' ∧ a'.host = a.host := by
  obtain ⟨userinfo, hsplit, hnone⟩ := splitUserinfo?_chars h
  obtain ⟨v, hv, hread⟩ := h.host
  obtain ⟨port', hport'⟩ : ∃ port', portOf scheme (splitPort false a.hostChars).2 = .ok port' ∧
      (splitPort false a.hostChars).1 = v.chars := by
    rw [Authority.hostChars, hv, splitPort_host hread]
    cases hport : a.port with
    | none => exact ⟨none, rfl, by simp [splitPort]⟩
    | some p =>
      obtain ⟨port', hparsed⟩ := parsePort_digits scheme (h.port p hport)
      refine ⟨port', ?_, by simp [splitPort]⟩
      simpa [splitPort, portOf] using hparsed
  have hhost : parseHost .special v.chars = .ok (some v) := by
    rw [parseHost, List.isEmpty_eq_false_iff.mpr hread.chars_ne_nil]
    simp [hread.parse_chars]
  rw [parseAuthority_special hkind isLast hsplit hnone, hport'.2, hhost, Except.bind, hport'.1]
  exact ⟨_, rfl, hv.symm⟩

end Authority

end ClusterOutput.Url
