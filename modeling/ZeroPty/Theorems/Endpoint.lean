import ZeroPty.Endpoint
import Mathlib.Tactic.Common

/-!
# What endpoint text means on both sides, and the ports of numeric sessions
-/

namespace ZeroPty

open Memory Text

/-! ## Numeric sessions -/

/-- A number is mapped to a port of its own: it is accepted exactly when there is such a port, the port is written as a numeral, and
no other number has it. -/
structure NumericMapped (s : List UInt8) : Prop where
  accepts : (∃ endpoint, numericSessionEndpoint s 16 = .ok endpoint) ↔
    1 ≤ digitsValue s ∧ digitsValue s ≤ 65535 - optySessionPortBase + 1
  port : ∀ endpoint, numericSessionEndpoint s 16 = .ok endpoint →
    endpoint.port = decimal (optySessionPortBase + digitsValue s - 1)
  range : ∀ endpoint, numericSessionEndpoint s 16 = .ok endpoint →
    ∃ port, endpoint.port = decimal port ∧ optySessionPortBase ≤ port ∧ port ≤ 65535
  own : ∀ t endpoint, t ≠ [] → (∀ b ∈ t, isDigit b = true) → numericSessionEndpoint s 16 = .ok endpoint →
    numericSessionEndpoint t 16 = .ok endpoint → digitsValue t = digitsValue s

namespace EndpointAux

theorem length_decimal_port {port : Nat} (h : port ≤ 65535) : (decimal port).length ≤ 5 := by
  rw [decimal, List.length_map, Nat.length_toDigits_le_iff (by decide) (by decide)]
  omega

theorem decimal_inj {m n : Nat} (h : decimal m = decimal n) : m = n := by
  rw [← digitsValue_decimal m, h, digitsValue_decimal]

/-- `opty_numeric_session_endpoint` on digits. -/
theorem numericSessionEndpoint_digits {s : List UInt8} (hne : s ≠ []) (hdigit : ∀ b ∈ s, isDigit b = true) :
    numericSessionEndpoint s 16 =
      if digitsValue s = 0 ∨ 2 ^ 64 ≤ digitsValue s ∨ 65535 < (optySessionPortBase + digitsValue s - 1) % 2 ^ 64 then .error .einval
      else .ok ⟨optyDefaultHost, decimal ((optySessionPortBase + digitsValue s - 1) % 2 ^ 64)⟩ := by
  have hdecimal : optyIsDecimal s = true := by
    rw [optyIsDecimal, Bool.and_eq_true]
    exact ⟨by simpa using hne, List.all_eq_true.2 hdigit⟩
  unfold numericSessionEndpoint optyNumericSessionEndpoint
  rw [if_pos hdecimal, strtoul_digits hne hdigit]
  by_cases hbig : 2 ^ 64 ≤ digitsValue s
  · rw [if_pos hbig, if_pos (.inr (.inl hbig))]
  · rw [if_neg hbig]
    by_cases hzero : digitsValue s = 0
    · simp only [hzero, or_true, if_true, true_or]
    · by_cases hport : 65535 < (optySessionPortBase + digitsValue s - 1) % 2 ^ 64
      · simp only [hzero, hbig, hport, ne_eq, not_true_eq_false, or_self, if_false, if_true, or_true]
      · have hlen := length_decimal_port (Nat.not_lt.1 hport)
        simp only [hzero, hbig, hport, ne_eq, not_true_eq_false, or_self, if_false]
        rw [if_neg (by omega)]

/-- What an accepted number has to be, and the port it has. -/
theorem port_of_accepted {s : List UInt8} (hne : s ≠ []) (hdigit : ∀ b ∈ s, isDigit b = true) {endpoint : EndpointText}
    (h : numericSessionEndpoint s 16 = .ok endpoint) :
    0 < digitsValue s ∧ digitsValue s < 2 ^ 64 ∧ (optySessionPortBase + digitsValue s - 1) % 2 ^ 64 ≤ 65535 ∧
      endpoint.port = decimal ((optySessionPortBase + digitsValue s - 1) % 2 ^ 64) := by
  rw [numericSessionEndpoint_digits hne hdigit] at h
  split at h
  · cases h
  · rename_i hok
    simp only [not_or] at hok
    cases h
    exact ⟨by omega, by omega, by omega, rfl⟩

end EndpointAux

open EndpointAux

/-- A numeric session is mapped to its own port exactly when the sum with the port base does not wrap around. -/
theorem numeric_mapped_iff {s : List UInt8} (hne : s ≠ []) (hdigit : ∀ b ∈ s, isDigit b = true) :
    NumericMapped s ↔ digitsValue s < 2 ^ 64 - (optySessionPortBase - 1) ∨ 2 ^ 64 ≤ digitsValue s := by
  have hspec := numericSessionEndpoint_digits hne hdigit
  constructor
  · intro h
    by_contra hwraps
    unfold optySessionPortBase at hwraps hspec
    -- The sum wraps around to a port below the base, which is accepted.
    have hok : ∃ endpoint, numericSessionEndpoint s 16 = .ok endpoint := by
      rw [hspec, if_neg (by omega)]
      exact ⟨_, rfl⟩
    have hsmall := (h.accepts.1 hok).2
    unfold optySessionPortBase at hsmall
    omega
  · intro hsum
    have hexact : digitsValue s < 2 ^ 64 → (optySessionPortBase + digitsValue s - 1) % 2 ^ 64 = optySessionPortBase + digitsValue s - 1 := by
      unfold optySessionPortBase at hsum ⊢
      omega
    refine ⟨?_, fun endpoint h => ?_, fun endpoint h => ?_, fun t endpoint hnet hdigit' h h' => ?_⟩
    · constructor
      · rintro ⟨endpoint, h⟩
        obtain ⟨hpos, hlt, hport, -⟩ := port_of_accepted hne hdigit h
        rw [hexact hlt] at hport
        unfold optySessionPortBase at hport ⊢
        omega
      · rintro ⟨hpos, hle⟩
        unfold optySessionPortBase at hle hspec
        rw [hspec, if_neg (by omega)]
        exact ⟨_, rfl⟩
    · obtain ⟨-, hlt, -, hport⟩ := port_of_accepted hne hdigit h
      rw [hport, hexact hlt]
    · obtain ⟨hpos, hlt, hle, hport⟩ := port_of_accepted hne hdigit h
      rw [hexact hlt] at hle hport
      refine ⟨_, hport, ?_, hle⟩
      unfold optySessionPortBase
      omega
    · obtain ⟨hpos, hlt, hle, hport⟩ := port_of_accepted hne hdigit h
      obtain ⟨hpos', hlt', -, hport'⟩ := port_of_accepted hnet hdigit' h'
      have hsame := decimal_inj (hport.symm.trans hport')
      unfold optySessionPortBase at hsame hle
      omega

theorem numeric_mapped_iff_largest : NumericMapped (ascii "59459") ∧
    numericSessionEndpoint (ascii "59459") 16 = .ok ⟨optyDefaultHost, ascii "65535"⟩ :=
  ⟨(numeric_mapped_iff (by decide +kernel) (by decide +kernel)).2 (by decide +kernel), by decide +kernel⟩

/-- The largest `unsigned long` is taken for the port below the base. -/
theorem numeric_wraps_around : numericSessionEndpoint (ascii "18446744073709551615") 16 = .ok ⟨optyDefaultHost, ascii "6075"⟩ ∧
    ¬NumericMapped (ascii "18446744073709551615") := by
  have hok : numericSessionEndpoint (ascii "18446744073709551615") 16 = .ok ⟨optyDefaultHost, ascii "6075"⟩ := by decide +kernel
  refine ⟨hok, fun h => ?_⟩
  have hsmall := (h.accepts.1 ⟨_, hok⟩).2
  revert hsmall
  decide +kernel

/-! ## Endpoint text -/

namespace EndpointAux

/-- A list that reads the same when a letter is put before it has no other letter after it. -/
theorem eq_of_shifted {α : Type} {a b : α} {l x y : List α} (h : l ++ a :: x = b :: (l ++ y)) : a = b := by
  induction l with
  | nil => exact (List.cons.inj h).1
  | cons c l ih =>
    rw [List.cons_append, List.cons_append] at h
    obtain ⟨rfl, htail⟩ := List.cons.inj h
    exact ih htail

variable {mallocHost mallocPort : Alloc UInt8} {defaultHost defaultPort : List UInt8} {out : EndpointText}

theorem optyDupRange_ok {malloc : Alloc UInt8} (h : ∀ n, malloc n ≠ none) (range : List UInt8) : optyDupRange malloc range = some range := by
  unfold optyDupRange
  obtain ⟨block, hblock⟩ := Option.ne_none_iff_exists'.1 (h (range.length + 1))
  rw [hblock, Option.map_some]

theorem eq_of_optyDupRange {malloc : Alloc UInt8} {range copy : List UInt8} (h : optyDupRange malloc range = some copy) : copy = range := by
  obtain ⟨block, -, heq⟩ := Option.map_eq_some_iff.1 h
  exact heq.symm

theorem optyParseEndpoint_ok_iff {input : Option (List UInt8)} {endpoint : EndpointText} :
    optyParseEndpoint mallocHost mallocPort input defaultHost defaultPort out = (.ok (), endpoint) ↔
      parseEndpoint mallocHost mallocPort input defaultHost defaultPort = .ok endpoint := by
  unfold optyParseEndpoint
  split
  · rename_i e he
    rw [he, Prod.mk.injEq, and_iff_right rfl, Except.ok.injEq]
  · rename_i e he
    rw [he]
    constructor <;> rintro ⟨⟩

/-- What is left of text between brackets, when it is accepted. -/
theorem parseBracketed_ok {host rest : List UInt8} {endpoint : EndpointText}
    (h : parseBracketed mallocHost mallocPort host rest defaultPort = .ok endpoint) :
    host ≠ [] ∧ endpoint.host = host ∧ (rest = [] ∧ endpoint.port = defaultPort ∨ rest = colon :: endpoint.port ∧ endpoint.port ≠ []) := by
  unfold parseBracketed at h
  split at h
  · cases h
  · rename_i hne
    split at h
    · cases h
    · rename_i copy hcopy
      split at h
      · cases h
        exact ⟨hne, eq_of_optyDupRange hcopy, .inl ⟨rfl, rfl⟩⟩
      · split at h
        · cases h
        · rename_i hcolon
          split at h
          · cases h
          · rename_i hport
            split at h
            · cases h
            · rename_i port hdup
              cases h
              have hsame := eq_of_optyDupRange hdup
              refine ⟨hne, eq_of_optyDupRange hcopy, .inr ?_⟩
              rw [hsame, not_not.1 hcolon]
              exact ⟨rfl, hport⟩

/-- What is left of text with a colon, when it is accepted. -/
theorem parseColon_ok {host port : List UInt8} {endpoint : EndpointText}
    (h : parseColon mallocHost mallocPort host port defaultHost = .ok endpoint) : colon ∉ port ∧ port ≠ [] ∧ endpoint.port = port := by
  unfold parseColon at h
  split at h
  · cases h
  · rename_i hcut
    split at h
    · cases h
    · split at h
      · cases h
      · rename_i hport
        split at h
        · cases h
        · rename_i copy hdup
          cases h
          exact ⟨cut_eq_none_iff.1 hcut, hport, eq_of_optyDupRange hdup⟩

/-- Text that does not start with a bracket is accepted with one colon at most. -/
theorem count_colon_of_ok {text : List UInt8} (hopen : text.head? ≠ some openBracket) {endpoint : EndpointText}
    (h : parseEndpoint mallocHost mallocPort (some text) defaultHost defaultPort = .ok endpoint) :
    text.count colon ≤ 1 ∧ ∀ host, text ≠ host ++ [colon] := by
  cases text with
  | nil => exact ⟨Nat.zero_le _, fun host heq => by simp at heq⟩
  | cons c text =>
    have hc : c ≠ openBracket := fun hc => hopen (by rw [hc, List.head?_cons])
    simp only [parseEndpoint, if_neg hc] at h
    split at h
    · rename_i hcut
      have hnone := cut_eq_none_iff.1 hcut
      refine ⟨by rw [List.count_eq_zero_of_not_mem hnone]; exact Nat.zero_le _, fun host heq => hnone ?_⟩
      rw [heq]
      exact List.mem_append_right _ (List.mem_singleton.2 rfl)
    · rename_i host port hcut
      obtain ⟨hport, hne, -⟩ := parseColon_ok h
      have heq := eq_of_cut hcut
      have hhost := not_mem_of_cut hcut
      rw [heq]
      constructor
      · rw [List.count_append, List.count_cons_self, List.count_eq_zero_of_not_mem hhost, List.count_eq_zero_of_not_mem hport]
      · intro host' hlast
        -- The last letter is one of the port, which has no colon.
        obtain ⟨front, last, rfl⟩ := List.eq_nil_or_concat port |>.resolve_left hne
        rw [List.concat_eq_append] at hlast hport
        have hlast' : host ++ colon :: front ++ [last] = host' ++ [colon] := by simpa using hlast
        have := (List.append_inj' hlast' rfl).2
        exact hport (List.mem_append_right _ (by rw [this]; exact List.mem_singleton.2 rfl))

/-- Text between brackets is accepted only with a host that is closed, and a port after a colon if anything comes after it. -/
theorem bracketed_of_ok {text : List UInt8} {endpoint : EndpointText}
    (h : parseEndpoint mallocHost mallocPort (some (openBracket :: text)) defaultHost defaultPort = .ok endpoint) :
    ∃ host rest, text = host ++ closeBracket :: rest ∧ closeBracket ∉ host ∧ host ≠ [] ∧ endpoint.host = host ∧
      (rest = [] ∧ endpoint.port = defaultPort ∨ rest = colon :: endpoint.port ∧ endpoint.port ≠ []) := by
  simp only [parseEndpoint, if_true] at h
  split at h
  · cases h
  · rename_i host rest hcut
    obtain ⟨hne, hhost, hrest⟩ := parseBracketed_ok h
    exact ⟨host, rest, eq_of_cut hcut, not_mem_of_cut hcut, hne, hhost, hrest⟩

/-- What may come after the brackets. -/
theorem rest_of_ok {h rest : List UInt8} (hclose : closeBracket ∉ h) {endpoint : EndpointText}
    (hok : parseEndpoint mallocHost mallocPort (some (openBracket :: h ++ closeBracket :: rest)) defaultHost defaultPort = .ok endpoint) :
    rest = [] ∨ ∃ port, rest = colon :: port ∧ port ≠ [] := by
  rw [List.cons_append] at hok
  obtain ⟨host, rest', heq, hclose', -, -, hrest⟩ := bracketed_of_ok hok
  have hcut := cut_append hclose rest
  rw [heq, cut_append hclose', Option.some.injEq, Prod.mk.injEq] at hcut
  rw [← hcut.2]
  rcases hrest with ⟨hnil, -⟩ | ⟨hcons, hne⟩
  · exact .inl hnil
  · exact .inr ⟨_, hcons, hne⟩

/-- Text with one colon, after a host that does not start with a bracket. -/
theorem parseEndpoint_colon (hmallocHost : ∀ n, mallocHost n ≠ none) (hmallocPort : ∀ n, mallocPort n ≠ none) {h p : List UInt8}
    (hh : h ≠ []) (hp : p ≠ []) (hcolon : colon ∉ h) (hopen : h.head? ≠ some openBracket) (hcolon' : colon ∉ p) :
    parseEndpoint mallocHost mallocPort (some (h ++ colon :: p)) defaultHost defaultPort = .ok ⟨h, p⟩ := by
  obtain ⟨c, rest, rfl⟩ := List.exists_cons_of_ne_nil hh
  have hc : c ≠ openBracket := fun hc => hopen (by rw [hc, List.head?_cons])
  have hcut : cut colon (c :: (rest ++ colon :: p)) = some (c :: rest, p) := cut_append hcolon p
  simp only [parseEndpoint, List.cons_append, if_neg hc, hcut, parseColon, cut_eq_none_iff.2 hcolon', if_neg hh, if_neg hp,
    optyDupRange_ok hmallocHost, optyDupRange_ok hmallocPort]

/-- Text between brackets, with a port or without. -/
theorem parseEndpoint_bracketed (hmallocHost : ∀ n, mallocHost n ≠ none) (hmallocPort : ∀ n, mallocPort n ≠ none) {h p : List UInt8}
    (hh : h ≠ []) (hclose : closeBracket ∉ h) (hp : p ≠ []) :
    parseEndpoint mallocHost mallocPort (some (openBracket :: h ++ closeBracket :: colon :: p)) defaultHost defaultPort = .ok ⟨h, p⟩ ∧
      parseEndpoint mallocHost mallocPort (some (openBracket :: h ++ [closeBracket])) defaultHost defaultPort = .ok ⟨h, defaultPort⟩ := by
  simp only [parseEndpoint, List.cons_append, if_true, cut_append hclose, parseBracketed, if_neg hh, if_neg hp,
    optyDupRange_ok hmallocHost, optyDupRange_ok hmallocPort, ne_eq, not_true_eq_false, if_false, and_self]

/-- Text with a host that starts with a bracket never means that host. -/
theorem host_ne_of_bracket {h p : List UInt8} (hopen : h.head? = some openBracket) :
    parseEndpoint mallocHost mallocPort (some (h ++ colon :: p)) defaultHost defaultPort ≠ .ok ⟨h, p⟩ := by
  intro hok
  cases h with
  | nil => cases hopen
  | cons c h =>
    rw [List.head?_cons, Option.some.injEq] at hopen
    subst hopen
    obtain ⟨host, rest, htext, -, -, hhost, -⟩ := bracketed_of_ok hok
    simp only at hhost
    rw [← hhost] at htext
    have hshift := eq_of_shifted htext
    revert hshift
    decide

/-- A rejection leaves the endpoint as it was. -/
theorem optyParseEndpoint_rejects {input : Option (List UInt8)}
    (h : ∀ endpoint, parseEndpoint mallocHost mallocPort input defaultHost defaultPort ≠ .ok endpoint) :
    ∃ e, optyParseEndpoint mallocHost mallocPort input defaultHost defaultPort out = (.error e, out) := by
  unfold optyParseEndpoint
  split
  · rename_i endpoint hok
    exact absurd hok (h endpoint)
  · exact ⟨_, rfl⟩

end EndpointAux

/-- The endpoint text of the client means to the server what it was made from exactly when the host has no colon and does not start
with a bracket and the port has no colon; text with brackets means the host between them; text with two colons, a colon at its end or
brackets that enclose no host is rejected, and so is text after the brackets that is not a port. A rejection leaves the endpoint as it
was. -/
theorem endpoint_text_agrees (mallocHost mallocPort : Alloc UInt8) (defaultHost defaultPort : List UInt8) (out : EndpointText) :
    ((∀ n, mallocHost n ≠ none) → (∀ n, mallocPort n ≠ none) →
      (∀ h p : List UInt8, h ≠ [] → p ≠ [] → h.length + p.length + 1 < 128 → ∃ text, endpointArg ⟨h, p⟩ = .ok text ∧
        (optyParseEndpoint mallocHost mallocPort (some text) defaultHost defaultPort out = (.ok (), ⟨h, p⟩) ↔
          colon ∉ h ∧ h.head? ≠ some openBracket ∧ colon ∉ p)) ∧
      ∀ h p : List UInt8, h ≠ [] → closeBracket ∉ h → p ≠ [] →
        optyParseEndpoint mallocHost mallocPort (some (openBracket :: h ++ closeBracket :: colon :: p)) defaultHost defaultPort out =
          (.ok (), ⟨h, p⟩) ∧
        optyParseEndpoint mallocHost mallocPort (some (openBracket :: h ++ [closeBracket])) defaultHost defaultPort out =
          (.ok (), ⟨h, defaultPort⟩)) ∧
    (∀ text : List UInt8,
      (text.head? ≠ some openBracket ∧ 2 ≤ text.count colon) ∨
      (∃ h, h.head? ≠ some openBracket ∧ text = h ++ [colon]) ∨
      (∃ h, closeBracket ∉ h ∧ text = openBracket :: h ++ [closeBracket, colon]) ∨
      (∃ rest, text = openBracket :: closeBracket :: rest) ∨
      (∃ rest, closeBracket ∉ rest ∧ text = openBracket :: rest) ∨
      (∃ h c rest, closeBracket ∉ h ∧ c ≠ colon ∧ text = openBracket :: h ++ closeBracket :: c :: rest) →
      ∃ e, optyParseEndpoint mallocHost mallocPort (some text) defaultHost defaultPort out = (.error e, out)) ∧
    ∀ (input : Option (List UInt8)) (e : Errno) (after : EndpointText),
      optyParseEndpoint mallocHost mallocPort input defaultHost defaultPort out = (.error e, after) → after = out := by
  refine ⟨fun hmallocHost hmallocPort => ⟨fun h p hh hp hlen => ?_, fun h p hh hclose hp => ?_⟩, fun text htext => ?_, ?_⟩
  · refine ⟨h ++ colon :: p, if_neg (by simp only [List.length_append, List.length_cons]; omega), ?_⟩
    rw [optyParseEndpoint_ok_iff]
    constructor
    · intro hok
      by_cases hopen : h.head? = some openBracket
      · exact absurd hok (host_ne_of_bracket hopen)
      · have hopen' : (h ++ colon :: p).head? ≠ some openBracket := by
          obtain ⟨c, rest, rfl⟩ := List.exists_cons_of_ne_nil hh
          exact hopen
        -- The colon between host and port is the only one.
        have hcount := (count_colon_of_ok hopen' hok).1
        rw [List.count_append, List.count_cons_self] at hcount
        exact ⟨List.count_eq_zero.1 (by omega), hopen, List.count_eq_zero.1 (by omega)⟩
    · rintro ⟨hcolon, hopen, hcolon'⟩
      exact parseEndpoint_colon hmallocHost hmallocPort hh hp hcolon hopen hcolon'
  · rw [optyParseEndpoint_ok_iff, optyParseEndpoint_ok_iff]
    exact parseEndpoint_bracketed hmallocHost hmallocPort hh hclose hp
  · refine optyParseEndpoint_rejects fun endpoint hok => ?_
    rcases htext with ⟨hopen, hcount⟩ | ⟨h, hopen, rfl⟩ | ⟨h, hclose, rfl⟩ | ⟨rest, rfl⟩ | ⟨rest, hclose, rfl⟩ | ⟨h, c, rest, hclose, hc, rfl⟩
    · have := (count_colon_of_ok hopen hok).1
      omega
    · have hopen' : (h ++ [colon]).head? ≠ some openBracket := by
        cases h with
        | nil => decide
        | cons c h => exact hopen
      exact (count_colon_of_ok hopen' hok).2 h rfl
    · rcases rest_of_ok hclose hok with hnil | ⟨port, hport, hne⟩
      · cases hnil
      · exact hne (List.cons.inj hport).2.symm
    · obtain ⟨host, rest', heq, hclose', hne, -⟩ := bracketed_of_ok hok
      cases host with
      | nil => exact hne rfl
      | cons c host =>
        rw [List.cons_append, List.cons.injEq] at heq
        exact hclose' (by rw [heq.1]; exact List.mem_cons_self)
    · obtain ⟨host, rest', heq, -⟩ := bracketed_of_ok hok
      exact hclose (by rw [heq]; exact List.mem_append_right _ List.mem_cons_self)
    · rcases rest_of_ok hclose hok with hnil | ⟨port, hport, -⟩
      · cases hnil
      · exact hc (List.cons.inj hport).1
  · intro input e after h
    unfold optyParseEndpoint at h
    split at h
    · cases h
    · cases h
      rfl

/-- Memory for everything. -/
def plentiful : Alloc UInt8 := fun n => some (Block.fill n 0)

theorem endpoint_text_agrees_localhost :
    optyParseEndpoint plentiful plentiful (some (ascii "127.0.0.1:6078")) optyDefaultHost optyDefaultPort ⟨[], []⟩ =
      (.ok (), ⟨ascii "127.0.0.1", ascii "6078"⟩) ∧
    (∃ e, optyParseEndpoint plentiful plentiful (some (ascii "::1:6078")) optyDefaultHost optyDefaultPort ⟨[], []⟩ =
      (.error e, ⟨[], []⟩)) := by
  obtain ⟨hmeans, hrejects, -⟩ := endpoint_text_agrees plentiful plentiful optyDefaultHost optyDefaultPort ⟨[], []⟩
  obtain ⟨text, htext, hiff⟩ := (hmeans (by rintro n ⟨⟩) (by rintro n ⟨⟩)).1 (ascii "127.0.0.1") (ascii "6078") (by decide) (by decide)
    (by decide)
  have heq : text = ascii "127.0.0.1:6078" := by
    have harg : endpointArg ⟨ascii "127.0.0.1", ascii "6078"⟩ = .ok (ascii "127.0.0.1:6078") := by decide
    rw [harg] at htext
    exact (Except.ok.inj htext).symm
  rw [heq] at hiff
  exact ⟨hiff.2 (by decide), hrejects _ (.inl (by decide))⟩

end ZeroPty
