import SettingStore.Proofs.Origin.Host
import SettingStore.Service

set_option autoImplicit false

/-! # Base addresses

An origin that was read from an address is canonical (`Origin.canonical_of_ofText`): its scheme
has a default port, its host is a canonical one, its port has 16 bits. Its base address is read
as the same scheme and host on the same port, unless the scheme is `https` and the port is 80
(`Origin.ofText_baseAddress`): port 80 is left out whatever the scheme, and where no port stands
the default one of the scheme is meant.
-/

namespace SettingStore.Origin

/-! ## Parts of an address -/

section Parts

variable {cs scheme after : List Char} {default port : Nat}

/-- A character that may stand in the part of an address with host and port and does not end a
part before the host. -/
def Plain (c : Char) : Prop := 0x20 < c.toNat ∧ endsAuthority c = false ∧ c ≠ '@'

theorem plain_of_isNameChar {c : Char} (h : Host.isNameChar c = true) : Plain c := by
  simp only [Host.isNameChar, Bool.and_eq_true, decide_eq_true_eq, Bool.not_eq_true'] at h
  obtain ⟨⟨hlow, -⟩, hreserved⟩ := h
  have hne : ∀ d ∈ Host.reservedChars, c ≠ d := by
    rintro _ hd rfl
    rw [List.contains_iff_mem.2 hd] at hreserved
    exact absurd hreserved (by decide)
  refine ⟨hlow, ?_, hne '@' (by decide)⟩
  simp only [endsAuthority, isSlash, Bool.or_eq_false_iff, beq_eq_false_iff_ne]
  exact ⟨⟨⟨hne '/' (by decide), hne '\\' (by decide)⟩, hne '?' (by decide)⟩, hne '#' (by decide)⟩

theorem plain_of_mem_chars {host : Host} (h : host.Canonical) {c : Char} (hc : c ∈ host.chars) :
    Plain c := by
  rcases Host.mem_chars h hc with hc | rfl | rfl | rfl
  · exact plain_of_isNameChar hc
  · exact ⟨by decide, rfl, by decide⟩
  · exact ⟨by decide, rfl, by decide⟩
  · exact ⟨by decide, rfl, by decide⟩

/-- Nothing is cleaned away from an address without spaces and controls. -/
theorem cleaned_eq_self (h : ∀ c ∈ cs, 0x20 < c.toNat) : cleaned cs = cs := by
  have hpadding : ∀ c ∈ cs, isPadding c = false := fun c hc =>
    decide_eq_false (Nat.not_le.2 (h c hc))
  have hstart : cs.dropWhile isPadding = cs :=
    List.dropWhile_eq_self_iff.2 fun hfirst => by simp [hpadding _ (List.getElem_mem hfirst)]
  rw [cleaned, hstart,
    Text.dropTrailing_eq_self fun c hc => hpadding c (List.mem_of_getLast? hc),
    List.filter_eq_self]
  intro c hc
  have hlow := h c hc
  rw [Bool.not_eq_true', isIgnored, Bool.or_eq_false_iff, Bool.or_eq_false_iff,
    beq_eq_false_iff_ne, beq_eq_false_iff_ne, beq_eq_false_iff_ne]
  refine ⟨⟨?_, ?_⟩, ?_⟩ <;> rintro rfl <;> exact absurd hlow (by decide)

theorem afterUser_eq_self (h : ∀ c ∈ cs, c ≠ '@') : afterUser cs = cs := by
  rw [afterUser, Text.segments_eq_singleton fun c hc => beq_eq_false_iff_ne.2 (h c hc)]
  rfl

/-- After two slashes plain characters are the part with host and port, all of them. -/
theorem authority_eq_self (h : ∀ c ∈ cs, Plain c) :
    afterUser ((('/' :: '/' :: cs).dropWhile isSlash).takeWhile (!endsAuthority ·)) = cs := by
  have hslashes : ('/' :: '/' :: cs).dropWhile isSlash = cs := by
    show cs.dropWhile isSlash = cs
    refine List.dropWhile_eq_self_iff.2 fun hfirst hslash => ?_
    have hends := (h _ (List.getElem_mem hfirst)).2.1
    rw [endsAuthority, hslash] at hends
    exact absurd hends (by simp)
  have hwhole : cs.takeWhile (!endsAuthority ·) = cs := by
    rw [List.takeWhile_eq_self_iff]
    exact fun c hc => by rw [(h c hc).2.1]; rfl
  rw [hslashes, hwhole, afterUser_eq_self fun c hc => (h c hc).2.2]

/-- The schemes that have an origin. -/
theorem defaultPort?_cases (h : defaultPort? scheme = some default) :
    (scheme = "http".toList ∧ default = 80) ∨ (scheme = "https".toList ∧ default = 443) := by
  rw [defaultPort?] at h
  split at h
  · rename_i hhttp
    exact Or.inl ⟨hhttp, (Option.some.inj h).symm⟩
  · split at h
    · rename_i hhttps
      exact Or.inr ⟨hhttps, (Option.some.inj h).symm⟩
    · exact absurd h (by simp)

theorem scheme_chars (h : defaultPort? scheme = some default) :
    ∀ c ∈ scheme, (c != ':') = true ∧ Text.asciiLower c = c ∧ 0x20 < c.toNat := by
  have hall : scheme.all (fun c => c != ':' && (Text.asciiLower c == c && 0x20 < c.toNat))
      = true := by
    rcases defaultPort?_cases h with ⟨rfl, -⟩ | ⟨rfl, -⟩
    · decide
    · decide
  intro c hc
  have hchar := List.all_eq_true.1 hall c hc
  rw [Bool.and_eq_true, Bool.and_eq_true, beq_iff_eq, decide_eq_true_eq] at hchar
  exact hchar

/-- A port is the default one, or a number of 16 bits after a colon. -/
theorem port?_cases (h : port? default after = some port) :
    ((after = [] ∨ after = [':']) ∧ port = default) ∨
      ∃ digits, after = ':' :: digits ∧ Text.natural? digits = some port ∧ port ≤ 65535 := by
  unfold port? at h
  split at h
  · exact Or.inl ⟨Or.inl rfl, (Option.some.inj h).symm⟩
  · exact Or.inl ⟨Or.inr rfl, (Option.some.inj h).symm⟩
  · rename_i digits _
    obtain ⟨hread, hport⟩ := Option.filter_eq_some_iff.1 h
    exact Or.inr ⟨digits, rfl, hread, of_decide_eq_true hport⟩
  · exact absurd h (by simp)

theorem plain_of_port? (h : port? default after = some port) : ∀ c ∈ after, Plain c := by
  have hcolon : Plain ':' := ⟨by decide, rfl, by decide⟩
  rcases port?_cases h with ⟨rfl | rfl, -⟩ | ⟨digits, rfl, hread, -⟩
  · exact fun c hc => absurd hc List.not_mem_nil
  · exact fun c hc => List.mem_singleton.1 hc ▸ hcolon
  · refine List.forall_mem_cons.2 ⟨hcolon, fun c hc => ?_⟩
    have hdigit := (Text.natural?_eq_some_iff.1 hread).1.2 c hc
    exact plain_of_isNameChar (Host.isNameChar_of_isHexDigit (Ipv4.isHexDigit_of_isDigit hdigit))

/-! ## The host -/

/-- Characters with no meaning for the end of the host stand in it; between brackets a colon has
none. -/
theorem spanHost_append {bracketed : Bool} {text : List Char}
    (h : ∀ c ∈ text, c ≠ '[' ∧ c ≠ ']' ∧ (c = ':' → bracketed = true)) (rest : List Char) :
    spanHost bracketed (text ++ rest) =
      (text ++ (spanHost bracketed rest).1, (spanHost bracketed rest).2) := by
  induction text with
  | nil => rfl
  | cons c text ih =>
      obtain ⟨hopen, hclose, hcolon⟩ := h c List.mem_cons_self
      rw [List.cons_append, spanHost, if_neg, if_neg hopen, if_neg hclose]
      · simp only [ih fun d hd => h d (List.mem_cons_of_mem _ hd), List.cons_append]
      · rintro ⟨hc, hb⟩
        rw [hcolon hc] at hb
        exact absurd hb (by decide)

/-- The host ends where the port starts. -/
theorem spanHost_chars {host : Host} (h : host.Canonical)
    (hport : port? default after = some port) :
    spanHost false (host.chars ++ after) = (host.chars, after) := by
  have hafter : spanHost false after = ([], after) := by
    rcases port?_cases hport with ⟨rfl | rfl, -⟩ | ⟨digits, rfl, -⟩
    · rfl
    · rfl
    · rw [spanHost, if_pos ⟨rfl, rfl⟩]
  have hname : ∀ {c}, Host.isNameChar c = true → c ≠ '[' ∧ c ≠ ']' ∧ c ≠ ':' := by
    intro c hc
    refine ⟨?_, ?_, ?_⟩ <;> rintro rfl <;> exact absurd hc (by decide)
  have hunbracketed : ∀ {text}, (∀ c ∈ text, Host.isNameChar c = true) →
      spanHost false (text ++ after) = (text, after) := by
    intro text htext
    rw [spanHost_append, hafter, List.append_nil]
    intro c hc
    obtain ⟨hopen, hclose, hcolon⟩ := hname (htext c hc)
    exact ⟨hopen, hclose, fun heq => absurd heq hcolon⟩
  cases host with
  | name text => exact hunbracketed fun c hc => (h.2.1 c hc).1
  | ipv4 address => exact hunbracketed fun c hc => (Host.kept_of_mem_ipv4 hc).1
  | ipv6 groups =>
      have htext : ∀ c ∈ Ipv6.chars groups, c ≠ '[' ∧ c ≠ ']' ∧ (c = ':' → true = true) := by
        intro c hc
        rcases Ipv6.mem_chars hc with hc | rfl
        · have hc := hname (Host.isNameChar_of_isHexDigit hc)
          exact ⟨hc.1, hc.2.1, fun _ => rfl⟩
        · exact ⟨by decide, by decide, fun _ => rfl⟩
      have hclose : spanHost true (']' :: after) = ([']'], after) := by
        rw [spanHost]
        simp [hafter]
      rw [Host.chars, List.cons_append, List.append_assoc, spanHost]
      simp [spanHost_append htext, hclose]

end Parts

/-! ## Reading -/

/-- The origins that reading can answer. -/
structure Canonical (o : Origin) : Prop where
  scheme : ∃ default, defaultPort? o.scheme.toList = some default
  host : ∃ host : Host, host.Canonical ∧ o.host.toList = host.chars
  port : o.port ≤ 65535

/-- A scheme, a canonical host and what is read as a port are read as their origin. -/
theorem ofChars?_append {scheme after : List Char} {host : Host} {default port : Nat}
    (hscheme : defaultPort? scheme = some default) (hhost : host.Canonical)
    (hport : port? default after = some port) :
    ofChars? (scheme ++ ':' :: '/' :: '/' :: (host.chars ++ after)) =
      some ⟨String.ofList scheme, String.ofList host.chars, port⟩ := by
  have hchars := scheme_chars hscheme
  have hplain : ∀ c ∈ host.chars ++ after, Plain c := by
    intro c hc
    rcases List.mem_append.1 hc with hc | hc
    · exact plain_of_mem_chars hhost hc
    · exact plain_of_port? hport c hc
  have hclean : cleaned (scheme ++ ':' :: '/' :: '/' :: (host.chars ++ after)) =
      scheme ++ ':' :: '/' :: '/' :: (host.chars ++ after) := by
    apply cleaned_eq_self
    intro c hc
    simp only [List.mem_append (s := scheme), List.mem_cons] at hc
    rcases hc with hc | rfl | rfl | rfl | hc
    · exact (hchars c hc).2.2
    · decide
    · decide
    · decide
    · exact (hplain c hc).1
  have htake : (scheme ++ ':' :: '/' :: '/' :: (host.chars ++ after)).takeWhile (· != ':') =
      scheme := by
    rw [List.takeWhile_append_of_pos fun c hc => (hchars c hc).1]
    exact List.append_nil scheme
  have hdrop : (scheme ++ ':' :: '/' :: '/' :: (host.chars ++ after)).dropWhile (· != ':') =
      ':' :: '/' :: '/' :: (host.chars ++ after) := by
    rw [List.dropWhile_append_of_pos fun c hc => (hchars c hc).1]
    rfl
  have hlower : scheme.map Text.asciiLower = scheme := by
    calc scheme.map Text.asciiLower
        = scheme.map id := List.map_congr_left fun c hc => (hchars c hc).2.1
      _ = scheme := List.map_id scheme
  have hnonempty : host.chars.isEmpty = false :=
    List.isEmpty_eq_false_iff.2 (Host.chars_ne_nil hhost)
  rw [ofChars?]
  simp only [hclean, htake, hdrop, hlower, hscheme, authority_eq_self hplain,
    spanHost_chars hhost hport, hnonempty, Host.ofChars?_chars hhost, hport]
  rfl

theorem canonical_of_ofChars? {cs : List Char} {o : Origin} (h : ofChars? cs = some o) :
    o.Canonical := by
  rw [ofChars?] at h
  simp only at h
  split at h
  · rename_i default _ rest hscheme hrest
    split at h
    · exact absurd h (by simp)
    · split at h
      · rename_i host port hhost hport
        rw [← Option.some.inj h]
        refine ⟨⟨default, ?_⟩, ⟨host, Host.canonical_of_ofChars? hhost, String.toList_ofList⟩, ?_⟩
        · rw [String.toList_ofList]
          exact hscheme
        · rcases port?_cases hport with ⟨-, rfl⟩ | ⟨_, -, -, hbits⟩
          · rcases defaultPort?_cases hscheme with ⟨-, rfl⟩ | ⟨-, rfl⟩
            · show 80 ≤ 65535
              decide
            · show 443 ≤ 65535
              decide
          · exact hbits
      · exact absurd h (by simp)
  · exact absurd h (by simp)

theorem canonical_of_ofText {address : String} {o : Origin} (h : ofText address = .ok o) :
    o.Canonical := by
  rw [ofText] at h
  split at h
  · rename_i read hread
    cases h
    exact canonical_of_ofChars? hread
  · cases h

/-! ## Writing and reading back -/

/-- What a base address has after the host. -/
def portChars (port : Nat) : List Char :=
  if port = 80 then [] else ':' :: Nat.toDigits 10 port

theorem toList_baseAddress (o : Origin) :
    o.baseAddress.toList =
      o.scheme.toList ++ ':' :: '/' :: '/' :: (o.host.toList ++ portChars o.port) := by
  have hslashes : "://".toList = [':', '/', '/'] := rfl
  have hcolon : ":".toList = [':'] := rfl
  rw [baseAddress, portChars]
  split
  · simp [hslashes]
  · simp [hslashes, hcolon]

/-- Port 80 is read back as the default port. -/
theorem port?_portChars {port : Nat} (h : port ≤ 65535) (default : Nat) :
    port? default (portChars port) = some (if port = 80 then default else port) := by
  rw [portChars]
  split
  · rfl
  · cases hdigits : Nat.toDigits 10 port with
    | nil => exact absurd hdigits Nat.toDigits_ne_nil
    | cons c cs =>
        have hread : Text.natural? (c :: cs) = some port := hdigits ▸ Text.natural?_toDigits port
        rw [port?, hread, Option.filter_some, decide_eq_true h, if_pos rfl]
        simp

/-- The base address of a canonical origin. -/
theorem ofChars?_baseAddress {o : Origin} (h : o.Canonical) {default : Nat}
    (hscheme : defaultPort? o.scheme.toList = some default) :
    ofChars? o.baseAddress.toList =
      some { o with port := if o.port = 80 then default else o.port } := by
  obtain ⟨host, hhost, hchars⟩ := h.host
  rw [toList_baseAddress, hchars, ofChars?_append hscheme hhost (port?_portChars h.port default),
    ← hchars, String.ofList_toList, String.ofList_toList]

/-- The base address of an origin that was read from an address is read as the same scheme, host
and port, unless the scheme is `https` and the port, which is left out, is 80: then it is read on
port 443. The email host is the base address by default. -/
theorem ofText_baseAddress {address : String} {o : Origin} (h : ofText address = .ok o) :
    ofText o.baseAddress =
        .ok (if o.scheme = "https" ∧ o.port = 80 then { o with port := 443 } else o) ∧
      ∀ plugins, Service.default? ⟨(Registry.empty.registerCore ⟨plugins, some o⟩).2.freeze⟩
        "core.email_host" = some (.string o.baseAddress) := by
  have hcanonical := canonical_of_ofText h
  obtain ⟨default, hscheme⟩ := hcanonical.scheme
  refine ⟨?_, fun plugins => rfl⟩
  rw [ofText, ofChars?_baseAddress hcanonical hscheme]
  -- Port 80 is read back as itself only where it is the default port.
  rcases defaultPort?_cases hscheme with ⟨hhttp, rfl⟩ | ⟨hhttps, rfl⟩
  · have hother : o.scheme ≠ "https" := by
      intro hhttps
      rw [hhttps] at hhttp
      exact absurd hhttp (by decide)
    have hport : (if o.port = 80 then 80 else o.port) = o.port := by
      split
      · rename_i h80
        exact h80.symm
      · rfl
    rw [hport, if_neg fun hboth => hother hboth.1]
  · have hhttps' : o.scheme = "https" := String.toList_inj.1 hhttps
    by_cases h80 : o.port = 80
    · rw [if_pos h80, if_pos ⟨hhttps', h80⟩]
    · rw [if_neg h80, if_neg fun hboth => h80 hboth.2]

/-- An address with slashes of the other kind, a user, an IPv4 address at the end of the host, a
leading zero in the port and a path. -/
theorem ofText_baseAddress_of_embedded :
    ofText "HTTPS:\\\\user@[1:0:0:2::3.4.5.6]:08443/x"
        = .ok ⟨"https", "[1::2:0:0:304:506]", 8443⟩ ∧
      ofText "https://[1::2:0:0:304:506]:8443" = .ok ⟨"https", "[1::2:0:0:304:506]", 8443⟩ ∧
      Service.default?
        ⟨(Registry.empty.registerCore
          ⟨Catalog.empty, some ⟨"https", "[1::2:0:0:304:506]", 8443⟩⟩).2.freeze⟩
        "core.email_host" = some (.string "https://[1::2:0:0:304:506]:8443") := by
  have h : ofText "HTTPS:\\\\user@[1:0:0:2::3.4.5.6]:08443/x"
      = .ok ⟨"https", "[1::2:0:0:304:506]", 8443⟩ := rfl
  obtain ⟨hread, hdefault⟩ := ofText_baseAddress h
  exact ⟨h, hread, hdefault Catalog.empty⟩

/-- Without its port, an `https` address on port 80 denotes another origin. -/
theorem https_port_80_left_out :
    ofText "https://h:80" = .ok ⟨"https", "h", 80⟩ ∧
      ofText (baseAddress ⟨"https", "h", 80⟩) = .ok ⟨"https", "h", 443⟩ := by
  constructor <;> rfl

end SettingStore.Origin
