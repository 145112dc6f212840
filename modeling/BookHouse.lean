import BookHouse.Lib.Machine
import BookHouse.Orders.StockMachine
import BookHouse.Finance.Schedule
import BookHouse.Proofs.Quote
import BookHouse.Proofs.Status
import BookHouse.Proofs.Inventory
import BookHouse.Proofs.Stock
import BookHouse.Proofs.Sales
import BookHouse.Proofs.History
import BookHouse.Proofs.Convergence
import BookHouse.Proofs.Payments
import BookHouse.Proofs.Refunds
import BookHouse.Proofs.Lifecycle
import BookHouse.Payments.LifeMachine
import BookHouse.Proofs.Life
import BookHouse.Proofs.Holds
import BookHouse.Proofs.CouponUse
import BookHouse.Proofs.Counters
import BookHouse.Proofs.Fifo
import BookHouse.Proofs.Captures
import BookHouse.Proofs.AutoCancel
import BookHouse.Proofs.Purchases
import BookHouse.Proofs.Numbers
import BookHouse.Proofs.Counts
import BookHouse.Proofs.Outbox
import BookHouse.Proofs.CartQuote
import BookHouse.Proofs.LastOwner
import BookHouse.Proofs.Revocation
import BookHouse.Proofs.Rotation
import BookHouse.Proofs.CouponExact
import BookHouse.Proofs.Profit
import BookHouse.Proofs.Categories
import BookHouse.Proofs.Reports
import BookHouse.Proofs.Fixpoint
import BookHouse.Proofs.Reversals
import BookHouse.Proofs.Catalogue
import BookHouse.Proofs.Returns
import BookHouse.Proofs.CourierDues
import BookHouse.Proofs.CodSettlement
import BookHouse.Proofs.ShippingFee
import BookHouse.Proofs.CourierCost
import BookHouse.Proofs.StockWriter
import BookHouse.Proofs.StruckPrices
import BookHouse.Proofs.CodCheck
import BookHouse.Proofs.Csv
import BookHouse.Proofs.Idempotency
import BookHouse.Proofs.ImageProbe
import BookHouse.Proofs.Signature
import BookHouse.Proofs.DayClose
import BookHouse.Proofs.Escalation
import BookHouse.Proofs.ResetCodes
import BookHouse.Proofs.BruteForce
import BookHouse.Proofs.Availability
import BookHouse.Proofs.ProductList
import BookHouse.Proofs.Messages
import BookHouse.Proofs.Segments
import BookHouse.Proofs.Dashboard
import BookHouse.Proofs.Gallery
import BookHouse.Proofs.Sections
import BookHouse.Proofs.Chat
import BookHouse.Proofs.BulkPrices
import BookHouse.Proofs.PickList
import BookHouse.Proofs.Phones
import BookHouse.Proofs.Description
import BookHouse.Proofs.SlugSearch
import BookHouse.Proofs.BnFormat
import BookHouse.Proofs.DhakaCalendar
import BookHouse.Proofs.DocumentHtml
import BookHouse.Proofs.Search
import BookHouse.Proofs.Checkout
import BookHouse.Proofs.LiveSessions
import BookHouse.Proofs.Baskets
import BookHouse.Content.StoreSettings
