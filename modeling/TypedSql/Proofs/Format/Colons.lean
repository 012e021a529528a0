import TypedSql.Proofs.Format.Whole
import TypedSql.Proofs.Value.Display
import TypedSql.Text.Hex
import TypedSql.Wire.Encode

/-!
# Addresses of 128 bits as text

The format of an address of 128 bits is an alternative of a dozen overlapping repetitions. Of the
texts of hexadecimal digits and colons it admits the eight groups between single colons and the
groups, up to seven, around one gap: `isIpv6_decides_groups`. So it admits the text that is sent for
any address without a scope, whose longest run of zero groups is left out.
-/

namespace TypedSql.Format

open TypedSql.Text TypedSql.Network Pattern

/-- Whether a word is one to four hexadecimal digits. -/
def IsGroup (word : List Char) : Prop :=
  (1 ≤ word.length ∧ word.length ≤ 4) ∧ ∀ c ∈ word, isHexDigit c = true

/-- Groups between single colons. -/
def joined (groups : List (List Char)) : List Char := [':'].intercalate groups

/-- Whether a text is some groups, a gap and some other groups. -/
structure IsAroundGap (high low : List (List Char)) (text : List Char) : Prop where
  high_groups : ∀ group ∈ high, IsGroup group
  low_groups : ∀ group ∈ low, IsGroup group
  eq_joined : text = joined high ++ [':', ':'] ++ joined low

/-- Whether a text is an address in hexadecimal digits: eight groups between single colons, or a gap
with up to seven groups around it. -/
def IsHexAddress (text : List Char) : Prop :=
  (∃ groups : List (List Char), groups.length = 8 ∧ (∀ group ∈ groups, IsGroup group) ∧
      text = joined groups) ∨
    ∃ high low, high.length + low.length ≤ 7 ∧ IsAroundGap high low text

section Joined

variable {group : List Char} {groups : List (List Char)}

theorem joined_cons (group : List Char) (groups : List (List Char)) :
    joined (group :: groups) = group ++ groups.flatMap (':' :: ·) := by
  induction groups generalizing group with
  | nil => simp [joined]
  | cons next groups ih =>
      rw [joined, List.intercalate_cons_cons, ← joined, ih]
      simp

theorem flatMap_append_colon_eq (h : groups ≠ []) :
    groups.flatMap (· ++ [':']) = joined groups ++ [':'] := by
  obtain ⟨groups, group, rfl⟩ := (List.eq_nil_or_concat' groups).resolve_left h
  rw [List.flatMap_append, joined, ← flatMap_append_mark]
  simp

theorem flatMap_cons_colon_eq (h : groups ≠ []) :
    groups.flatMap (':' :: ·) = ':' :: joined groups := by
  obtain ⟨group, groups, rfl⟩ := List.exists_cons_of_ne_nil h
  rw [joined_cons, List.flatMap_cons]
  rfl

/-- An address in hexadecimal digits has no other characters than those and colons. -/
theorem IsHexAddress.isHexDigit_or_colon {text : List Char} (h : IsHexAddress text) :
    ∀ c ∈ text, isHexDigit c = true ∨ c = ':' := by
  have hjoined : ∀ groups : List (List Char), (∀ group ∈ groups, IsGroup group) →
      ∀ c ∈ joined groups, isHexDigit c = true ∨ c = ':' := by
    intro groups hgroups c hc
    by_cases hcolon : c = ':'
    · exact .inr hcolon
    · obtain ⟨group, hgroup, hc⟩ := (mem_intercalate_mark_iff hcolon).1 hc
      exact .inl ((hgroups group hgroup).2 c hc)
  intro c hc
  rcases h with ⟨groups, -, hgroups, rfl⟩ | ⟨high, low, -, hhigh, hlow, rfl⟩
  · exact hjoined groups hgroups c hc
  · rcases List.mem_append.1 hc with hc | hc
    · rcases List.mem_append.1 hc with hc | hc
      · exact hjoined high hhigh c hc
      · exact .inr (by simpa using hc)
    · exact hjoined low hlow c hc

end Joined

section Forms

variable {word : List Char} {least most count : Nat}

theorem spells_hexGroup_iff : hexGroup.Spells word ↔ IsGroup word := by
  have hdigit : ∀ c, ([CharItem.range '0' '9', .range 'a' 'f', .range 'A' 'F'].any
      fun item => item.contains c) = isHexDigit c := by
    intro c
    simp only [List.any_cons, List.any_nil, Bool.or_false, CharItem.contains, isHexDigit, hexDigit?]
    split
    · simp_all
    · split
      · simp_all
      · split <;> simp_all
  rw [hexGroup, between, hexDigit, spells_repeated_char_iff]
  simp only [IsGroup, hdigit, Option.some.injEq, forall_eq',
    Nat.max_eq_right (show 1 ≤ 4 by decide)]

theorem spells_groupColon_iff :
    groupColon.Spells word ↔ ∃ group, hexGroup.Spells group ∧ word = group ++ [':'] := by
  simp only [groupColon, Spells, spells_single_iff]
  constructor
  · rintro ⟨group, _, rfl, hgroup, rfl⟩
    exact ⟨group, hgroup, rfl⟩
  · rintro ⟨group, hgroup, rfl⟩
    exact ⟨group, [':'], rfl, hgroup, rfl⟩

theorem spells_groupColons_iff (hbounds : least ≤ most) :
    (between least most groupColon).Spells word ↔ ∃ groups : List (List Char),
      (least ≤ groups.length ∧ groups.length ≤ most) ∧ word = groups.flatMap (· ++ [':']) ∧
        ∀ group ∈ groups, IsGroup group := by
  refine spells_between_iff hbounds fun word => ?_
  simp only [spells_groupColon_iff, spells_hexGroup_iff]

theorem spells_colonGroups_iff (hbounds : least ≤ most) :
    (between least most colonGroup).Spells word ↔ ∃ groups : List (List Char),
      (least ≤ groups.length ∧ groups.length ≤ most) ∧ word = groups.flatMap (':' :: ·) ∧
        ∀ group ∈ groups, IsGroup group := by
  refine spells_between_iff hbounds fun word => ?_
  simp only [colonGroup, Spells, spells_hexGroup_iff, spells_single_iff]
  constructor
  · rintro ⟨_, group, rfl, rfl, hgroup⟩
    exact ⟨group, hgroup, rfl⟩
  · rintro ⟨group, hgroup, rfl⟩
    exact ⟨[':'], group, rfl, rfl, hgroup⟩

/-- Eight groups between single colons. -/
theorem spells_full_iff : (sequence [times 7 groupColon, hexGroup]).Spells word ↔
    ∃ groups : List (List Char), groups.length = 8 ∧ (∀ group ∈ groups, IsGroup group) ∧
      word = joined groups := by
  rw [spells_separated_iff fun _ => spells_groupColon_iff]
  simp only [spells_hexGroup_iff, joined]

/-- A gap behind all groups. -/
theorem spells_gapLast_iff : (sequence [between 1 7 groupColon, single ':']).Spells word ↔
    ∃ high : List (List Char), (1 ≤ high.length ∧ high.length ≤ 7) ∧ IsAroundGap high [] word := by
  simp only [spells_pair_iff, spells_groupColons_iff (show 1 ≤ 7 by decide), spells_single_iff]
  constructor
  · rintro ⟨_, _, rfl, ⟨high, hlength, rfl, hhigh⟩, rfl⟩
    refine ⟨high, hlength, hhigh, by simp, ?_⟩
    rw [flatMap_append_colon_eq (List.ne_nil_of_length_pos hlength.1)]
    simp [joined]
  · rintro ⟨high, hlength, hhigh, -, rfl⟩
    refine ⟨_, [':'], ?_, ⟨high, hlength, rfl, hhigh⟩, rfl⟩
    rw [flatMap_append_colon_eq (List.ne_nil_of_length_pos hlength.1)]
    simp [joined]

/-- A gap before all groups. -/
theorem spells_gapFirst_iff :
    (both (single ':') (oneOf (between 1 7 colonGroup) [single ':'])).Spells word ↔
      ∃ low : List (List Char), low.length ≤ 7 ∧ IsAroundGap [] low word := by
  simp only [Spells, spells_oneOf_iff, List.mem_cons, List.not_mem_nil, or_false, or_and_right,
    exists_or, exists_eq_left, spells_colonGroups_iff (show 1 ≤ 7 by decide), spells_single_iff]
  constructor
  · rintro ⟨_, _, rfl, rfl, ⟨low, hlength, rfl, hlow⟩ | rfl⟩
    · refine ⟨low, hlength.2, by simp, hlow, ?_⟩
      rw [flatMap_cons_colon_eq (List.ne_nil_of_length_pos hlength.1)]
      rfl
    · exact ⟨[], Nat.zero_le 7, by simp, by simp, rfl⟩
  · rintro ⟨low, hlength, -, hlow, rfl⟩
    cases low with
    | nil => exact ⟨[':'], [':'], rfl, rfl, .inr rfl⟩
    | cons group low =>
        refine ⟨[':'], _, ?_, rfl, .inl ⟨group :: low, ⟨Nat.succ_pos _, hlength⟩, rfl, hlow⟩⟩
        rw [flatMap_cons_colon_eq (List.cons_ne_nil group low)]
        rfl

/-- A gap between groups. -/
theorem spells_aroundGap_iff (hpos : 1 ≤ count) (hcount : count ≤ 6) :
    (aroundGap count).Spells word ↔ ∃ high low : List (List Char),
      (1 ≤ high.length ∧ high.length ≤ 7 - count) ∧ (1 ≤ low.length ∧ low.length ≤ count) ∧
        IsAroundGap high low word := by
  have hbounds : 1 ≤ 7 - count := by omega
  simp only [aroundGap, spells_pair_iff, spells_groupColons_iff hbounds,
    spells_colonGroups_iff hpos]
  constructor
  · rintro ⟨_, _, rfl, ⟨high, hhighLength, rfl, hhigh⟩, low, hlowLength, rfl, hlow⟩
    refine ⟨high, low, hhighLength, hlowLength, hhigh, hlow, ?_⟩
    rw [flatMap_append_colon_eq (List.ne_nil_of_length_pos hhighLength.1),
      flatMap_cons_colon_eq (List.ne_nil_of_length_pos hlowLength.1)]
    simp
  · rintro ⟨high, low, hhighLength, hlowLength, hhigh, hlow, rfl⟩
    refine ⟨_, _, ?_, ⟨high, hhighLength, rfl, hhigh⟩, low, hlowLength, rfl, hlow⟩
    rw [flatMap_append_colon_eq (List.ne_nil_of_length_pos hhighLength.1),
      flatMap_cons_colon_eq (List.ne_nil_of_length_pos hlowLength.1)]
    simp

theorem aroundGap_mem (hpos : 1 ≤ count) (hcount : count ≤ 6) : aroundGap count ∈ colonForms := by
  have hcases : count = 1 ∨ count = 2 ∨ count = 3 ∨ count = 4 ∨ count = 5 ∨ count = 6 := by omega
  rcases hcases with rfl | rfl | rfl | rfl | rfl | rfl <;> simp [colonForms]

/-- A dotted tail has a dot. -/
theorem dot_mem_of_dottedTail (h : dottedTail.Spells word) : '.' ∈ word := by
  obtain ⟨parts, hparts, hrepeated⟩ := exists_word_of_sequence List.mem_cons_self h
  obtain ⟨part, hpart, hsequence⟩ := exists_word_of_repeated (by decide) hrepeated
  obtain ⟨dot, hdot, hspells⟩ :=
    exists_word_of_sequence (List.mem_cons_of_mem _ List.mem_cons_self) hsequence
  rw [spells_single_iff] at hspells
  exact hparts (hpart (hdot (hspells ▸ List.mem_cons_self)))

/-- The forms with a zone or a dotted tail have a character that no group and no gap has. -/
theorem not_spells_of_isHexText {pattern : Pattern}
    (htext : ∀ c ∈ word, isHexDigit c = true ∨ c = ':')
    (h : pattern ∈ [zoned, mapped, sequence [between 1 4 groupColon, single ':', dottedTail]]) :
    ¬ pattern.Spells word := by
  intro hspells
  have hpercent : '%' ∉ word := fun hmem => absurd (htext _ hmem) (by decide)
  have hdot : '.' ∉ word := fun hmem => absurd (htext _ hmem) (by decide)
  simp only [List.mem_cons, List.not_mem_nil, or_false] at h
  rcases h with rfl | rfl | rfl
  · obtain ⟨part, hpart, hword⟩ := exists_word_of_sequence (show single '%' ∈ _ by simp) hspells
    rw [spells_single_iff] at hword
    exact hpercent (hpart (hword ▸ List.mem_cons_self))
  · obtain ⟨part, hpart, hword⟩ := exists_word_of_sequence (show dottedTail ∈ _ by simp) hspells
    exact hdot (hpart (dot_mem_of_dottedTail hword))
  · obtain ⟨part, hpart, hword⟩ := exists_word_of_sequence (show dottedTail ∈ _ by simp) hspells
    exact hdot (hpart (dot_mem_of_dottedTail hword))

/-- The words of the forms that are made of hexadecimal digits and colons. -/
theorem spells_colonForms_iff (htext : ∀ c ∈ word, isHexDigit c = true ∨ c = ':') :
    (oneOf (sequence [times 7 groupColon, hexGroup]) colonForms).Spells word ↔
      IsHexAddress word := by
  rw [spells_oneOf_iff, List.exists_mem_cons_iff, spells_full_iff, IsHexAddress]
  refine or_congr_right ⟨?_, ?_⟩
  · rintro ⟨pattern, hpattern, hspells⟩
    have hgap : ∀ count, 1 ≤ count → count ≤ 6 → (aroundGap count).Spells word →
        ∃ high low, high.length + low.length ≤ 7 ∧ IsAroundGap high low word := by
      intro count hpos hcount haround
      obtain ⟨high, low, hhigh, hlow, hword⟩ := (spells_aroundGap_iff hpos hcount).1 haround
      exact ⟨high, low, by omega, hword⟩
    simp only [colonForms, List.mem_cons, List.not_mem_nil, or_false] at hpattern
    rcases hpattern with rfl | rfl | rfl | rfl | rfl | rfl | rfl | rfl | hother
    · obtain ⟨high, hhigh, hword⟩ := spells_gapLast_iff.1 hspells
      exact ⟨high, [], hhigh.2, hword⟩
    · exact hgap 1 (by decide) (by decide) hspells
    · exact hgap 2 (by decide) (by decide) hspells
    · exact hgap 3 (by decide) (by decide) hspells
    · exact hgap 4 (by decide) (by decide) hspells
    · exact hgap 5 (by decide) (by decide) hspells
    · exact hgap 6 (by decide) (by decide) hspells
    · obtain ⟨low, hlow, hword⟩ := spells_gapFirst_iff.1 hspells
      exact ⟨[], low, by simpa using hlow, hword⟩
    · exact absurd hspells (not_spells_of_isHexText htext (by simpa using hother))
  · rintro ⟨high, low, hlength, hword⟩
    rcases Nat.eq_zero_or_pos high.length with hhigh | hhigh
    · obtain rfl := List.eq_nil_of_length_eq_zero hhigh
      exact ⟨_, by simp [colonForms], spells_gapFirst_iff.2 ⟨low, by omega, hword⟩⟩
    rcases Nat.eq_zero_or_pos low.length with hlow | hlow
    · obtain rfl := List.eq_nil_of_length_eq_zero hlow
      exact ⟨_, List.mem_cons_self, spells_gapLast_iff.2 ⟨high, ⟨hhigh, hlength⟩, hword⟩⟩
    · exact ⟨_, aroundGap_mem hlow (by omega), (spells_aroundGap_iff hlow (by omega)).2
        ⟨high, low, ⟨hhigh, by omega⟩, ⟨hlow, Nat.le_refl _⟩, hword⟩⟩

end Forms

section Rendered

open TypedSql.Network.Ipv6 TypedSql.Number

variable {groups : List Nat}

theorem isHexDigit_digitChar {n : Nat} (h : n < 16) : isHexDigit n.digitChar = true := by
  have hall : ∀ n : Fin 16, isHexDigit (Nat.digitChar n) = true := by decide
  exact hall ⟨n, h⟩

theorem isHexDigit_of_mem_hexShortest {n : Nat} : ∀ c ∈ hexShortest n, isHexDigit c = true := by
  induction n using Nat.strongRecOn with
  | ind n ih =>
      rcases Nat.lt_or_ge n 16 with hlt | hge
      · rw [hexShortest, Nat.toDigits_of_lt_base hlt]
        simpa using isHexDigit_digitChar hlt
      · rw [hexShortest, Nat.toDigits_of_base_le (by decide) hge]
        intro c hc
        rcases List.mem_append.1 hc with hc | hc
        · exact ih (n / 16) (Nat.div_lt_self (by omega) (by decide)) c hc
        · rw [List.mem_singleton.1 hc]
          exact isHexDigit_digitChar (Nat.mod_lt n (by decide))

theorem isGroup_hexShortest {n : Nat} (h : n < 65536) : IsGroup (hexShortest n) := by
  refine ⟨⟨List.length_pos_of_ne_nil Nat.toDigits_ne_nil, ?_⟩, isHexDigit_of_mem_hexShortest⟩
  exact (Nat.length_toDigits_le_iff (by decide) (by decide)).2 h

theorem toList_join (groups : List Nat) :
    (join groups).toList = joined (groups.map hexShortest) := by
  rw [join, String.toList_intercalate, List.map_map, joined]
  exact congrArg _ (List.map_congr_left fun group _ => String.toList_ofList)

/-- A longest run that is not empty starts at a group. -/
theorem longestRun_start_lt (h : (longestRun groups).2 ≠ 0) :
    (longestRun groups).1 < groups.length := by
  have hfold : ∀ (starts : List Nat) (best : Nat × Nat), (∀ start ∈ starts, start < groups.length) →
      (best.2 ≠ 0 → best.1 < groups.length) →
      let found := starts.foldl (fun best start =>
        let run := zeroRun (groups.drop start)
        if best.2 < run ∧ 2 ≤ run then (start, run) else best) best
      found.2 ≠ 0 → found.1 < groups.length := by
    intro starts
    induction starts with
    | nil => exact fun best _ hbest => hbest
    | cons start starts ih =>
        intro best hstarts hbest
        obtain ⟨hstart, hrest⟩ := List.forall_mem_cons.1 hstarts
        refine ih _ hrest ?_
        simp only
        split
        · exact fun _ => hstart
        · exact hbest
  exact hfold _ (0, 0) (fun start hstart => List.mem_range.1 hstart) (absurd rfl) h

theorem length_groups (address : Ipv6) : address.groups.length = 8 := by
  rw [Ipv6.groups, List.length_map, List.length_range]

/-- The text of an address without its scope is an address in hexadecimal digits. -/
theorem isHexAddress_renderBits (address : Ipv6) : IsHexAddress address.renderBits.toList := by
  have hlength := length_groups address
  have hgroups : ∀ group ∈ address.groups, IsGroup (hexShortest group) := by
    intro group hgroup
    obtain ⟨index, -, rfl⟩ := List.mem_map.1 hgroup
    exact isGroup_hexShortest (Nat.mod_lt _ (by decide))
  have hpart : ∀ part : List Nat, part ⊆ address.groups →
      ∀ group ∈ part.map hexShortest, IsGroup group := by
    intro part hsub group hgroup
    obtain ⟨number, hnumber, rfl⟩ := List.mem_map.1 hgroup
    exact hgroups number (hsub hnumber)
  have hrender : address.renderBits =
      if (longestRun address.groups).2 = 0 then join address.groups
      else join (address.groups.take (longestRun address.groups).1) ++ "::" ++
        join (address.groups.drop
          ((longestRun address.groups).1 + (longestRun address.groups).2)) := rfl
  rw [hrender]
  by_cases hrun : (longestRun address.groups).2 = 0
  · rw [if_pos hrun, toList_join]
    exact .inl ⟨_, by rw [List.length_map, hlength], hpart _ (List.Subset.refl _), rfl⟩
  · rw [if_neg hrun, String.toList_append, String.toList_append, toList_join, toList_join]
    have hstart := longestRun_start_lt hrun
    refine .inr ⟨_, _, ?_, hpart _ (List.take_subset _ _), hpart _ (List.drop_subset _ _), rfl⟩
    simp only [List.length_map, List.length_take, List.length_drop]
    omega

end Rendered

section Sent

open TypedSql.Outcome TypedSql.Wire

variable {address : Ipv6} {kind : Kind} {elementKind : Option Kind} {written : String}

theorem toText_ipv6 (address : Ipv6) : toText (.ipv6 address) = .ok (.text address.render) := by
  have hdisplayed : (Value.ipv6 address).displayed = .ok address.render :=
    Value.displayed_eq_ok.2 ⟨rfl, rfl⟩
  show (Value.ipv6 address).displayed.map Value.text = _
  rw [hdisplayed]
  rfl

/-- A kind that sends an address as a text sends its own text. -/
theorem eq_render_of_encodePresent
    (h : encodePresent (.ipv6 address) kind = .ok (.text written)) : written = address.render := by
  cases kind with
  | string | fixedString | uuid | ipv4 | ipv6 | enum8 | enum16 =>
      rw [encodePresent, toText_ipv6] at h
      exact (Value.text.inj (Except.ok.inj h)).symm
  | uint8 | uint16 | uint32 | uint64 | int8 | int16 | int32 | int64 | float32 | float64 | decimal =>
      rw [encodePresent, map_eq_ok] at h
      obtain ⟨number, -, hnumber⟩ := h
      cases hnumber
  | date | date32 | dateTime | dateTime64 =>
      obtain ⟨moment, hmoment, -⟩ := bind_eq_ok.1 h
      cases hmoment
  | boolean | nested | nullable | lowCardinality | array | tuple | map | json => cases h

theorem eq_render_of_encode
    (h : encode (.ipv6 address) kind elementKind = .ok (.text written)) :
    written = address.render := by
  have helement : ∀ element, encodeElement element (.ipv6 address) =
      encodePresent (.ipv6 address) element := fun _ => rfl
  unfold encode at h
  rw [if_neg (show ¬(Value.ipv6 address).isNull = true from Bool.false_ne_true)] at h
  split at h
  · cases h
  · exact eq_render_of_encodePresent (helement _ ▸ h)
  · exact eq_render_of_encodePresent (helement _ ▸ h)
  · exact eq_render_of_encodePresent h

end Sent

/-- A text of hexadecimal digits and colons has the format exactly if it is such an address. -/
theorem isIpv6_iff_isHexAddress {text : String}
    (htext : ∀ c ∈ text.toList, isHexDigit c = true ∨ c = ':') :
    isIpv6 text = true ↔ IsHexAddress text.toList := by
  have hplain : (oneOf (sequence [times 7 groupColon, hexGroup]) colonForms).isPlain = true := rfl
  rw [isIpv6, colons, startsIn_whole_iff hplain]
  constructor
  · rintro ⟨word, rest, hsplit, rfl | rfl, hword⟩
    · rw [List.append_nil] at hsplit
      exact (spells_colonForms_iff htext).1 (hsplit ▸ hword)
    · have hbreak : '\n' ∈ text.toList := hsplit ▸ List.mem_append_right _ List.mem_cons_self
      exact absurd (htext _ hbreak) (by decide)
  · intro h
    exact ⟨text.toList, [], (List.append_nil _).symm, .inl rfl, (spells_colonForms_iff htext).2 h⟩

/-- A text of hexadecimal digits and colons has the format of an address of 128 bits exactly if it
is eight groups between single colons, or up to seven around one gap. Every text that is sent for an
address without a scope has it, whatever the kind of the column, and the kinds of text and the
enumerations send one. -/
theorem isIpv6_decides_groups :
    (∀ text : String, (∀ c ∈ text.toList, isHexDigit c = true ∨ c = ':') →
      (isIpv6 text = true ↔ IsHexAddress text.toList)) ∧
    ∀ (bits : BitVec 128) (kind : Kind) (elementKind : Option Kind),
      (∀ written, Wire.encode (.ipv6 ⟨bits, none⟩) kind elementKind = .ok (.text written) →
        isIpv6 written = true) ∧
      (kind.isText = true ∨ kind.isEnum = true →
        ∃ written, Wire.encode (.ipv6 ⟨bits, none⟩) kind elementKind = .ok (.text written)) := by
  refine ⟨fun text => isIpv6_iff_isHexAddress, fun bits kind elementKind => ⟨?_, ?_⟩⟩
  · intro written hwritten
    have hrender : Ipv6.render ⟨bits, none⟩ = Ipv6.renderBits ⟨bits, none⟩ := String.append_empty
    have haddress := isHexAddress_renderBits ⟨bits, none⟩
    rw [eq_render_of_encode hwritten, hrender]
    exact (isIpv6_iff_isHexAddress haddress.isHexDigit_or_colon).2 haddress
  · intro hkind
    refine ⟨Ipv6.render ⟨bits, none⟩, ?_⟩
    cases kind with
    | string | fixedString | uuid | ipv4 | ipv6 | enum8 | enum16 => exact toText_ipv6 _
    | _ => simp [Kind.isText, Kind.isString, Kind.isEnum] at hkind

/-- A shortened text is an address, and the text that is sent for an address has the format. -/
theorem shortened_address_decided :
    IsHexAddress "2001:db8::1".toList ∧ ∃ written,
      Wire.encode (.ipv6 ⟨1, none⟩) .ipv6 none = .ok (.text written) ∧ isIpv6 written = true := by
  have hall : ("2001:db8::1".toList.all fun c => isHexDigit c || c == ':') = true := by decide
  have hchars : ∀ c ∈ "2001:db8::1".toList, isHexDigit c = true ∨ c = ':' := fun c hc => by
    simpa only [Bool.or_eq_true, beq_iff_eq] using List.all_eq_true.1 hall c hc
  refine ⟨(isIpv6_decides_groups.1 "2001:db8::1" hchars).1 (by decide), ?_⟩
  obtain ⟨haccepted, hsent⟩ := isIpv6_decides_groups.2 1 .ipv6 none
  obtain ⟨written, hwritten⟩ := hsent (by decide)
  exact ⟨written, hwritten, haccepted written hwritten⟩

end TypedSql.Format
