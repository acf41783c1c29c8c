import CloudClient.Machine.Script
import CloudClient.Machine.World

/-!
A plain configuration and worlds with a scripted server, in which every moment is the same time of
day and chance moves no delay.
-/

namespace CloudClient

def Config.plain : Config where
  credentials := ⟨"id", "secret"⟩
  baseUrl := defaultBaseUrl
  timeout := .ofSeconds 30
  retry := .standard
  tokenMargin := .ofSeconds 60
  tokenFormat := .json
  userAgent := defaultUserAgent

def World.scripted (s : Script) : World Script where
  server := Script.server .standard
  state := s
  timeOfDay _ := .epoch
  chance _ := .ofDecimal false 5 (-1)

@[simp] theorem World.chance_scripted (s : Script) (t : Nat) :
    (scripted s).chance t = .ofDecimal false 5 (-1) := by
  rw [scripted]

end CloudClient
