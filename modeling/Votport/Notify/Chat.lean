import Votport.Foundation.Escapes
import Votport.Foundation.Fields
import Votport.Foundation.Framed

/-!
# Chat messages

The title and the body of a notification are clipped, and escaped as the channel asks for.  When the
body begins with a link, its first line goes through as it is.  What Discord takes is clipped again
after it was escaped, and not inside an escape.
-/

namespace Votport.Notify

open Escapes

/-! ### Texts -/

/-- `clipped_chars`. -/
def clippedChars (text : List Char) (limit : ℕ) : List Char :=
  if limit < text.length then text.take (limit - 1) ++ ['…'] else text

/-- `DISCORD_CONTENT_LIMIT`. -/
def discordContentLimit : ℕ := 2000

/-- The characters that `escape_chat_markdown` escapes. -/
def isMarkup (escapeAmpersands : Bool) (c : Char) : Bool :=
  (escapeAmpersands && c == '&')
    || "\\*_~`[]()<>#+-.!|".toList.contains c

/-- `escape_chat_markdown`. -/
def escapeChatMarkdown (text : List Char) (escapeAmpersands : Bool) : List Char :=
  text.foldl (fun escaped c =>
    (if isMarkup escapeAmpersands c then escaped ++ ['\\'] else escaped) ++ [c]) []

/-- The loop of `clip_escaped`. -/
def clipLoop (limit : ℕ) : ℕ → List Char → List Char
  | _, [] => []
  | length, [c] => if limit < length + 1 + 1 then [] else [c]
  | length, c :: d :: text =>
      if c = '\\' then
        if limit < length + 2 + 1 then [] else c :: d :: clipLoop limit (length + 2) text
      else if limit < length + 1 + 1 then [] else c :: clipLoop limit (length + 1) (d :: text)

/-- `clip_escaped`. -/
def clipEscaped (text : List Char) (limit : ℕ) : List Char :=
  if text.length ≤ limit then text else clipLoop limit 0 text ++ ['…']

/-- `escape_slack_entities`. -/
def escapeSlackEntities (text : List Char) : List Char :=
  ((text.flatMap fun c => if c = '&' then "&amp;".toList else [c]).flatMap fun c =>
    if c = '<' then "&lt;".toList else [c]).flatMap fun c =>
      if c = '>' then "&gt;".toList else [c]

/-- The link that a body begins with, with the end of its line, and the rest of the body. -/
def splitLink (body : List Char) : List Char × List Char :=
  match Fields.splitOnce '\n' body with
  | some (first, rest) =>
      if "http://".toList <+: first ∨ "https://".toList <+: first then (first ++ ['\n'], rest)
      else ([], body)
  | none => ([], body)

/-! ### Payloads -/

/-- The channels that are chats. -/
inductive ChatChannel
  | slack
  | teams
  | googleChat
  | discord
deriving DecidableEq

/-- The texts of a payload that depend on the message. -/
inductive ChatPayload
  | slack (text header block : List Char)
  | teams (text title body : List Char)
  | googleChat (text : List Char)
  | discord (content : List Char)
deriving DecidableEq

/-- The text of a message with markdown. -/
def markdownText (title link rest : List Char) (escapeAmpersands : Bool) : List Char :=
  escapeChatMarkdown title escapeAmpersands
    ++ '\n' :: (link ++ escapeChatMarkdown rest escapeAmpersands)

/-- `chat_payload`. -/
def chatPayload (channel : ChatChannel) (title body : List Char) : ChatPayload :=
  let title := clippedChars title 150
  let body := clippedChars body 1500
  let (link, rest) := splitLink body
  match channel with
  | .slack =>
      .slack (escapeSlackEntities title ++ '\n' :: (link ++ escapeSlackEntities rest)) title
        (link ++ rest)
  | .teams =>
      let markdownTitle := escapeChatMarkdown title false
      let markdownBody := link ++ escapeChatMarkdown rest false
      .teams (markdownTitle ++ '\n' :: markdownBody) markdownTitle markdownBody
  | .googleChat => .googleChat (markdownText title link rest true)
  | .discord => .discord (clipEscaped (markdownText title link rest false) discordContentLimit)

/-! ### Clipping -/

theorem clippedChars_spec (text : List Char) {limit : ℕ} (hlimit : 0 < limit) :
  (clippedChars text limit).length ≤ limit
    ∧ (text.length ≤ limit → clippedChars text limit = text)
    ∧ (limit < text.length → ∃ kept rest, text = kept ++ rest ∧ kept.length = limit - 1
      ∧ clippedChars text limit = kept ++ ['…'])
  := by
  rw [clippedChars]
  split_ifs with hlong
  · refine ⟨?_, fun h => absurd hlong (Nat.not_lt.mpr h), fun _ => ?_⟩
    · rw [List.length_append, List.length_take, List.length_singleton]
      omega
    · refine ⟨text.take (limit - 1), text.drop (limit - 1), (List.take_append_drop ..).symm, ?_,
        rfl⟩
      rw [List.length_take]
      omega
  · exact ⟨Nat.le_of_not_lt hlong, fun _ => rfl, fun h => absurd h hlong⟩

/-- The loop keeps the tokens that fit before the dots. -/
theorem clipLoop_eq {limit length : ℕ} (hlength : length < limit) (text : List Char) :
  clipLoop limit length text
    = render '\\' (fit '\\' (limit - length - 1) (tokens '\\' text))
  := by
  induction text using tokens.induct '\\' generalizing length with
  | case1 => rfl
  | case2 c =>
      rw [clipLoop, tokens, fit]
      have hsize : (token '\\' (false, c)).length = 1 := rfl
      by_cases hfull : limit < length + 1 + 1
      · rw [if_pos hfull, if_neg (by omega)]
        rfl
      · rw [if_neg hfull, if_pos (by omega)]
        rfl
  | case3 d text ih =>
      rw [clipLoop, if_pos rfl, tokens, if_pos rfl, fit]
      have hsize : (token '\\' (true, d)).length = 2 := rfl
      by_cases hfull : limit < length + 2 + 1
      · rw [if_pos hfull, if_neg (by omega)]
        rfl
      · rw [if_neg hfull, if_pos (by omega), ih (by omega), render, render, List.flatMap_cons,
          hsize]
        have hroom : limit - (length + 2) - 1 = limit - length - 1 - 2 := by omega
        rw [hroom]
        rfl
  | case4 c d text hc ih =>
      rw [clipLoop, if_neg hc, tokens, if_neg hc, fit]
      have hsize : (token '\\' (false, c)).length = 1 := rfl
      by_cases hfull : limit < length + 1 + 1
      · rw [if_pos hfull, if_neg (by omega)]
        rfl
      · rw [if_neg hfull, if_pos (by omega), ih (by omega), render, render, List.flatMap_cons,
          hsize]
        have hroom : limit - (length + 1) - 1 = limit - length - 1 - 1 := by omega
        rw [hroom]
        rfl

/-- A text that is too long is cut after the tokens that fit before the dots. -/
theorem clipEscaped_spec {limit : ℕ} (hlimit : 0 < limit) (text : List Char) :
  (clipEscaped text limit).length ≤ limit
    ∧ (text.length ≤ limit → clipEscaped text limit = text)
    ∧ (limit < text.length → ∃ kept rest, tokens '\\' text = kept ++ rest
      ∧ tokens '\\' (clipEscaped text limit) = kept ++ [(false, '…')]
      ∧ ∀ t ∈ rest.head?,
        limit < (clipEscaped text limit).length + (token '\\' t).length)
  := by
  rw [clipEscaped]
  split_ifs with hlong
  · exact ⟨hlong, fun _ => rfl, fun h => absurd hlong (Nat.not_le.mpr h)⟩
  · obtain ⟨rest, hts, hfit, hnext⟩ := fit_spec '\\' (limit - 1) (tokens '\\' text)
    have hloop : clipLoop limit 0 text = render '\\' (fit '\\' (limit - 1) (tokens '\\' text)) := by
      rw [clipLoop_eq hlimit]
      rfl
    have hlength : (clipLoop limit 0 text ++ ['…']).length
        = (render '\\' (fit '\\' (limit - 1) (tokens '\\' text))).length + 1 := by
      rw [hloop, List.length_append, List.length_singleton]
    refine ⟨by omega, fun h => absurd h hlong, fun _ => ⟨_, rest, hts, ?_, ?_⟩⟩
    · have hrest : rest ≠ [] := by
        rintro rfl
        rw [List.append_nil] at hts
        rw [← hts, render_tokens] at hfit
        omega
      rw [hloop, tokens_render_append (plain_of_append hts hrest)]
      rfl
    · intro t ht
      have hlt := hnext t ht
      omega

/-! ### Escapes -/

/-- The characters of a text, and whether they are escaped. -/
def marked (escapeAmpersands : Bool) (text : List Char) : List (Bool × Char) :=
  text.map fun c => (isMarkup escapeAmpersands c, c)

theorem escapeChatMarkdown_eq (text : List Char) (escapeAmpersands : Bool) :
  escapeChatMarkdown text escapeAmpersands = render '\\' (marked escapeAmpersands text)
  := by
  have hfold : ∀ escaped : List Char, text.foldl (fun escaped c =>
      (if isMarkup escapeAmpersands c then escaped ++ ['\\'] else escaped) ++ [c]) escaped
        = escaped ++ render '\\' (marked escapeAmpersands text) := by
    induction text with
    | nil => exact fun escaped => (List.append_nil escaped).symm
    | cons c text ih =>
        intro escaped
        have hcons : render '\\' (marked escapeAmpersands (c :: text))
            = token '\\' (isMarkup escapeAmpersands c, c)
              ++ render '\\' (marked escapeAmpersands text) := rfl
        rw [List.foldl_cons, ih, hcons, token]
        cases isMarkup escapeAmpersands c <;> simp
  exact hfold []

theorem plain_marked (escapeAmpersands : Bool) (text : List Char) :
  Plain '\\' (marked escapeAmpersands text)
  := by
  intro t ht
  obtain ⟨c, _, rfl⟩ := List.mem_map.mp ht
  intro hplain
  dsimp only at hplain ⊢
  rintro rfl
  rw [isMarkup] at hplain
  exact absurd (Bool.or_eq_false_iff.mp hplain).2 (by decide)

/-- A link is a line at the beginning of the body. -/
theorem splitLink_spec (body : List Char) :
  (splitLink body).1 ++ (splitLink body).2 = body
    ∧ ((splitLink body).1 = [] ∨ ∃ first, (splitLink body).1 = first ++ ['\n']
      ∧ ("http://".toList <+: first ∨ "https://".toList <+: first))
  := by
  rw [splitLink]
  cases hsplit : Fields.splitOnce '\n' body with
  | none => exact ⟨rfl, .inl rfl⟩
  | some parts =>
      obtain ⟨first, rest⟩ := parts
      dsimp only
      split_ifs with hlink
      · refine ⟨?_, .inr ⟨first, rfl, hlink⟩⟩
        rw [(Fields.splitOnce_eq_some.mp hsplit).1, List.append_assoc]
        rfl
      · exact ⟨rfl, .inl rfl⟩

/-- The link and the rest are read as such, with all markup of the rest escaped. -/
theorem tokens_linked (body : List Char) (escapeAmpersands : Bool) :
  tokens '\\' ((splitLink body).1 ++ escapeChatMarkdown (splitLink body).2 escapeAmpersands)
    = tokens '\\' (splitLink body).1 ++ marked escapeAmpersands (splitLink body).2
  := by
  have hmarked : ∀ text, tokens '\\' (render '\\' (marked escapeAmpersands text))
      = marked escapeAmpersands text := by
    intro text
    have h := tokens_render_append (plain_marked escapeAmpersands text) []
    rwa [List.append_nil, tokens, List.append_nil] at h
  rw [escapeChatMarkdown_eq]
  obtain hnone | ⟨first, hlink, _⟩ := (splitLink_spec body).2
  · rw [hnone, List.nil_append, hmarked]
    rfl
  · rw [hlink, tokens_append (by decide : '\n' ≠ '\\'), hmarked]

/-- The text is read as the title, the link, and the rest, with all markup of the title and the rest
escaped. -/
theorem tokens_markdownText (title body : List Char) (escapeAmpersands : Bool) :
  tokens '\\' (markdownText title (splitLink body).1 (splitLink body).2 escapeAmpersands)
    = marked escapeAmpersands title ++ (false, '\n') :: (tokens '\\' (splitLink body).1
      ++ marked escapeAmpersands (splitLink body).2)
  := by
  rw [markdownText, escapeChatMarkdown_eq title,
    tokens_render_append (plain_marked escapeAmpersands title),
    tokens_cons_of_ne (by decide : '\n' ≠ '\\'), tokens_linked]

/-! ### Entities -/

/-- How a character is written for Slack. -/
def entity (c : Char) : List Char :=
  if c = '&' then "&amp;".toList
  else if c = '<' then "&lt;".toList
  else if c = '>' then "&gt;".toList
  else [c]

/-- Replacing one character after the other replaces each by its entity. -/
theorem escapeSlackEntities_eq (text : List Char) :
  escapeSlackEntities text = text.flatMap entity
  := by
  rw [escapeSlackEntities, List.flatMap_assoc, List.flatMap_assoc]
  congr 1
  funext c
  rw [entity]
  by_cases hamp : c = '&'
  · subst hamp
    decide
  · by_cases hlt : c = '<'
    · subst hlt
      decide
    · by_cases hgt : c = '>'
      · subst hgt
        decide
      · simp [hamp, hlt, hgt]

theorem entity_spec (c : Char) :
  entity c = ['&', 'a', 'm', 'p', ';'] ∧ c = '&' ∨ entity c = ['&', 'l', 't', ';'] ∧ c = '<'
    ∨ entity c = ['&', 'g', 't', ';'] ∧ c = '>'
    ∨ entity c = [c] ∧ c ≠ '&' ∧ c ≠ '<' ∧ c ≠ '>'
  := by
  rw [entity]
  split_ifs with hamp hlt hgt
  · exact .inl ⟨by decide, hamp⟩
  · exact .inr (.inl ⟨by decide, hlt⟩)
  · exact .inr (.inr (.inl ⟨by decide, hgt⟩))
  · exact .inr (.inr (.inr ⟨rfl, hamp, hlt, hgt⟩))

/-- Entities have no brackets. -/
theorem not_bracket_of_mem_escapeSlackEntities {text : List Char} {d : Char}
    (h : d ∈ escapeSlackEntities text) :
  d ≠ '<' ∧ d ≠ '>'
  := by
  rw [escapeSlackEntities_eq] at h
  obtain ⟨c, _, hd⟩ := List.mem_flatMap.mp h
  obtain ⟨hentity, _⟩ | ⟨hentity, _⟩ | ⟨hentity, _⟩ | ⟨hentity, _, hlt, hgt⟩ := entity_spec c
  · have hnone : ∀ c ∈ ['&', 'a', 'm', 'p', ';'], c ≠ '<' ∧ c ≠ '>' := by simp
    rw [hentity] at hd
    exact hnone d hd
  · have hnone : ∀ c ∈ ['&', 'l', 't', ';'], c ≠ '<' ∧ c ≠ '>' := by simp
    rw [hentity] at hd
    exact hnone d hd
  · have hnone : ∀ c ∈ ['&', 'g', 't', ';'], c ≠ '<' ∧ c ≠ '>' := by simp
    rw [hentity] at hd
    exact hnone d hd
  · rw [hentity, List.mem_singleton] at hd
    rw [hd]
    exact ⟨hlt, hgt⟩

/-- What is written for one character is not the beginning of what is written for another. -/
theorem cancels_entity : Framed.Cancels entity := by
  intro c c' r s h
  obtain ⟨hc, hc'⟩ | ⟨hc, hc'⟩ | ⟨hc, hc'⟩ | ⟨hc, hamp, _⟩ := entity_spec c <;>
    obtain ⟨hd, hd'⟩ | ⟨hd, hd'⟩ | ⟨hd, hd'⟩ | ⟨hd, hamp', _⟩ := entity_spec c' <;>
    rw [hc, hd] at h <;> simp_all <;> exact absurd h.1.symm hamp'

theorem escapeSlackEntities_inj {text text' : List Char}
    (h : escapeSlackEntities text = escapeSlackEntities text') :
  text = text'
  := by
  rw [escapeSlackEntities_eq, escapeSlackEntities_eq] at h
  have hlong : ∀ c, 0 < (entity c).length := by
    intro c
    obtain ⟨hc, _⟩ | ⟨hc, _⟩ | ⟨hc, _⟩ | ⟨hc, _⟩ := entity_spec c <;> rw [hc] <;> simp
  apply cancels_entity.flatMap_inj hlong (t := []) (u := []) rfl rfl
  rw [List.append_nil, List.append_nil]
  exact h

/-! ### Messages -/

/-- The title that is shown. -/
def shownTitle (title : List Char) : List Char := clippedChars title 150

/-- The body that is shown. -/
def shownBody (body : List Char) : List Char := clippedChars body 1500

/-- The link that is shown. -/
def shownLink (body : List Char) : List Char := (splitLink (shownBody body)).1

/-- What is shown after the link. -/
def shownRest (body : List Char) : List Char := (splitLink (shownBody body)).2

/-- How a message is read whose markup is escaped, but for its link. -/
def readMessage (escapeAmpersands : Bool) (title body : List Char) : List (Bool × Char) :=
  marked escapeAmpersands (shownTitle title) ++ (false, '\n') :: (tokens '\\' (shownLink body)
    ++ marked escapeAmpersands (shownRest body))

/-- The text of a message before it is cut. -/
def wholeText (escapeAmpersands : Bool) (title body : List Char) : List Char :=
  markdownText (shownTitle title) (shownLink body) (shownRest body) escapeAmpersands

/-- In every chat the message is read as the clipped title and the clipped body, with all markup
escaped outside of a link on the first line of the body.  What Discord takes is at most as long as
allowed, and is cut only when it is longer, after as many whole tokens as fit. -/
theorem chat_escaped (title body : List Char) :
  ((shownTitle title).length ≤ 150 ∧ (title.length ≤ 150 → shownTitle title = title))
  ∧ ((shownBody body).length ≤ 1500 ∧ (body.length ≤ 1500 → shownBody body = body))
  ∧ (shownLink body ++ shownRest body = shownBody body
    ∧ (shownLink body = [] ∨ ∃ first, shownLink body = first ++ ['\n']
      ∧ ("http://".toList <+: first ∨ "https://".toList <+: first)))
  ∧ (∃ text block, chatPayload .teams title body
        = .teams text (escapeChatMarkdown (shownTitle title) false) block
      ∧ tokens '\\' text = readMessage false title body
      ∧ tokens '\\' block
        = tokens '\\' (shownLink body) ++ marked false (shownRest body))
  ∧ (∃ text, chatPayload .googleChat title body = .googleChat text
      ∧ tokens '\\' text = readMessage true title body)
  ∧ (∃ text, chatPayload .slack title body = .slack text (shownTitle title) (shownBody body)
      ∧ text = escapeSlackEntities (shownTitle title) ++ '\n' :: (shownLink body
        ++ escapeSlackEntities (shownRest body))
      ∧ (∀ other, escapeSlackEntities other = escapeSlackEntities (shownTitle title) →
        other = shownTitle title)
      ∧ (∀ other, escapeSlackEntities other = escapeSlackEntities (shownRest body) →
        other = shownRest body)
      ∧ ∀ c ∈ escapeSlackEntities (shownTitle title) ++ escapeSlackEntities (shownRest body),
        c ≠ '<' ∧ c ≠ '>')
  ∧ ∃ content, chatPayload .discord title body = .discord content
      ∧ content.length ≤ discordContentLimit
      ∧ (tokens '\\' content = readMessage false title body
        ∨ ∃ kept cut, readMessage false title body = kept ++ cut
          ∧ tokens '\\' content = kept ++ [(false, '…')]
          ∧ ∀ next ∈ cut.head?, discordContentLimit < content.length + (token '\\' next).length)
      ∧ ((wholeText false title body).length ≤ discordContentLimit →
        content = wholeText false title body)
  := by
  obtain ⟨ht, ht', _⟩ := clippedChars_spec title (by decide : 0 < 150)
  obtain ⟨hb, hb', _⟩ := clippedChars_spec body (by decide : 0 < 1500)
  obtain ⟨hlink, hfirst⟩ := splitLink_spec (shownBody body)
  have hread : ∀ amp, tokens '\\' (wholeText amp title body) = readMessage amp title body :=
    tokens_markdownText (shownTitle title) (shownBody body)
  refine ⟨⟨ht, ht'⟩, ⟨hb, hb'⟩, ⟨hlink, hfirst⟩, 
    ⟨_, _, rfl, hread false, tokens_linked (shownBody body) false⟩, ⟨_, rfl, hread true⟩, ?_, ?_⟩
  · refine ⟨_, congrArg _ hlink, rfl, fun _ => escapeSlackEntities_inj,
      fun _ => escapeSlackEntities_inj, ?_⟩
    intro c hc
    obtain hc | hc := List.mem_append.mp hc
    · exact not_bracket_of_mem_escapeSlackEntities hc
    · exact not_bracket_of_mem_escapeSlackEntities hc
  · obtain ⟨hlength, hwhole, hcut⟩ := clipEscaped_spec (by decide : 0 < discordContentLimit)
      (wholeText false title body)
    refine ⟨_, rfl, hlength, ?_, hwhole⟩
    obtain hlong | hshort := Nat.lt_or_ge discordContentLimit (wholeText false title body).length
    · right
      obtain ⟨kept, cut, htokens, hclipped, hnext⟩ := hcut hlong
      exact ⟨kept, cut, (hread false).symm.trans htokens, hclipped, hnext⟩
    · left
      rw [← hread false]
      exact congrArg _ (hwhole hshort)

end Votport.Notify
