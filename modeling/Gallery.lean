import Gallery.Pages.ChatWindows
import Gallery.Theorems.Accounts
import Gallery.Theorems.AuditLog
import Gallery.Theorems.Authorship
import Gallery.Theorems.Buttons
import Gallery.Theorems.CategoryListing
import Gallery.Theorems.Chat
import Gallery.Theorems.ChatHistory
import Gallery.Theorems.ChatKeys
import Gallery.Theorems.ChatWindows
import Gallery.Theorems.CommentBox
import Gallery.Theorems.Confidentiality
import Gallery.Theorems.EventsPage
import Gallery.Theorems.Failures
import Gallery.Theorems.FragmentCache
import Gallery.Theorems.FrozenMenu
import Gallery.Theorems.History
import Gallery.Theorems.Leftovers
import Gallery.Theorems.LikeEvents
import Gallery.Theorems.LiveTable
import Gallery.Theorems.LiveText
import Gallery.Theorems.Mailing
import Gallery.Theorems.MenuLink
import Gallery.Theorems.NaturalKeys
import Gallery.Theorems.Noninterference
import Gallery.Theorems.OAuth
import Gallery.Theorems.Online
import Gallery.Theorems.Orphans
import Gallery.Theorems.Ownership
import Gallery.Theorems.Pagination
import Gallery.Theorems.Parity
import Gallery.Theorems.ParserAddress
import Gallery.Theorems.ParserBoxes
import Gallery.Theorems.ParserList
import Gallery.Theorems.Publication
import Gallery.Theorems.References
import Gallery.Theorems.Seeding
import Gallery.Theorems.Serializability
import Gallery.Theorems.SignIns
import Gallery.Theorems.Silence
import Gallery.Theorems.Storability
import Gallery.Theorems.Toggles
import Gallery.Theorems.Uploads
import Gallery.Theorems.UserText
