import CopyMint.Domain.Enums
import CopyMint.Library.Fallible
import CopyMint.Library.Hexadecimal

/-!
# Request identity and authorization context

A context is derived by the server from the Telegram identity of a request. Every
protected operation first requires a private chat, and then the platform owner or
a workspace.
-/

namespace CopyMint

open Hexadecimal

/-- The access errors by class and message. -/
inductive AccessError where
  | accessError (message : String)
  | privateChatRequired (message : String)
  | accessPending (message : String)
  | accessDenied (message : String)
  | platformOwnerRequired (message : String)
  | workspaceRequired (message : String)
  | walletLimitReached (message : String)
  | invalidChallenge (message : String)
  deriving DecidableEq

/-- The sender of an update and the chat that it came from. -/
structure TelegramIdentity where
  telegramUserId : ℤ
  chatId : ℤ
  chatType : Text
  username : Option Text := none
  displayName : Option Text := none
  deriving DecidableEq

/-- `"private"`, the type of a chat with one user. -/
def privateChat : Text := "private".toList

/-- The chat is private and is that of the sender. -/
def TelegramIdentity.isPrivateChat (identity : TelegramIdentity) : Bool :=
  identity.chatType = privateChat && identity.chatId = identity.telegramUserId

/-- `TelegramIdentity.require_private_chat`. -/
def TelegramIdentity.requirePrivateChat (identity : TelegramIdentity) : Except AccessError Unit :=
  if identity.isPrivateChat then .ok ()
  else .error (.privateChatRequired "This action is available only in a private bot chat.")

/-- What the server has found out about the sender of a request. -/
structure RequestContext where
  telegramUserId : ℤ
  chatId : ℤ
  chatType : Text
  correlationId : ℕ
  userId : Option ℕ := none
  workspaceId : Option ℕ := none
  workspaceRole : Option WorkspaceRole := none
  platformRole : Option PlatformRole := none
  deriving DecidableEq

namespace RequestContext

/-- `RequestContext.is_platform_owner`. -/
def isPlatformOwner (context : RequestContext) : Bool :=
  context.platformRole = some .platformOwner

/-- The identity in a context, without the names. -/
def identity (context : RequestContext) : TelegramIdentity where
  telegramUserId := context.telegramUserId
  chatId := context.chatId
  chatType := context.chatType

/-- `RequestContext.require_private_chat`. -/
def requirePrivateChat (context : RequestContext) : Except AccessError Unit :=
  context.identity.requirePrivateChat

/-- `RequestContext.require_platform_owner`. -/
def requirePlatformOwner (context : RequestContext) : Except AccessError Unit := do
  context.requirePrivateChat
  if context.isPlatformOwner then .ok ()
  else .error (.platformOwnerRequired "Platform-owner authorization is required.")

/-- `RequestContext.require_workspace`. -/
def requireWorkspace (context : RequestContext) : Except AccessError ℕ := do
  context.requirePrivateChat
  match context.workspaceId with
  | some workspaceId => .ok workspaceId
  | none => .error (.workspaceRequired "An active workspace is required.")

end RequestContext

theorem workspaceId_of_requireWorkspace {context : RequestContext} {workspaceId : ℕ}
    (passed : context.requireWorkspace = .ok workspaceId) :
    context.workspaceId = some workspaceId := by
  rcases Fallible.bind_eq_ok_iff.mp passed with ⟨_, _, carries⟩
  cases found : context.workspaceId with
  | none => simp [found] at carries
  | some carried =>
      simp only [found] at carries
      cases carries
      rfl

end CopyMint
